/-!
What may go wrong outside of completion itself, which never fails.

* `FileFault`: why an operation on files fails, with the system's wording;
* `Error`: every cause of failure, with its message.
-/

namespace SqlCompletion

/-- Why an operation on files fails. -/
inductive FileFault
  | notFound
  | alreadyExists
  | notDirectory
  | isDirectory
  | nameTooLong
  | notText
  deriving DecidableEq, Repr

/-- The wording of a fault. -/
def FileFault.message : FileFault → String
  | notFound => "No such file or directory (os error 2)"
  | alreadyExists => "File exists (os error 17)"
  | notDirectory => "Not a directory (os error 20)"
  | isDirectory => "Is a directory (os error 21)"
  | nameTooLong => "File name too long (os error 36)"
  | notText => "stream did not contain valid UTF-8"

/-- A cause of failure. -/
inductive Error
  /-- An operation on files failed. -/
  | io (fault : FileFault)
  /-- A text is not JSON of the expected form. -/
  | serialization
  /-- A store of another kind failed, for the reason it gives. -/
  | store (reason : String)
  /-- Metadata could not be loaded, for the reason its source gives. -/
  | metadata (reason : String)
  deriving DecidableEq, Repr

/-- The message of a failure. -/
def Error.message : Error → String
  | io fault => "I/O error: " ++ fault.message
  | serialization => "Serialization error"
  | store reason => "Store error: " ++ reason
  | metadata reason => "Metadata error: " ++ reason

end SqlCompletion
