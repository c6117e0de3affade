import SqlCompletion.CommandLine

/-!
The command line program on the machine it runs on.
-/

namespace SqlCompletion

/-- The fault behind an error of the system. -/
def faultOfError : IO.Error → FileFault
  | .noFileOrDirectory .. => .notFound
  | .alreadyExists .. => .alreadyExists
  | .inappropriateType .. => .isDirectory
  | .invalidArgument .. => .nameTooLong
  | _ => .notDirectory

/-- Files, input and environment of the machine. -/
def machineHost (valueOf : String → Option String) : Host IO where
  fileText path := do
    match ← (IO.FS.readBinFile path).toBaseIO with
    | .error e => pure (.error (faultOfError e))
    | .ok bytes =>
      pure (match String.fromUTF8? bytes with
        | some text => .ok text
        | none => .error .notText)
  inputText := do
    pure (String.fromUTF8? (← (← IO.getStdin).readBinToEnd))
  environment := pure valueOf

/-- The values of the variables that settings are taken from. -/
def readVariables (names : List String) : IO (String → Option String) := do
  let values ← names.mapM fun name => do pure (name, ← IO.getEnv name)
  pure fun name => (values.lookup name).join

end SqlCompletion

open SqlCompletion in
/-- Prints the completions and returns the status of the program. -/
def main (arguments : List String) : IO UInt32 := do
  let valueOf ← readVariables Settings.variableNames
  let outcome ← CommandLine.run (machineHost valueOf) arguments
  (← IO.getStdout).putStr outcome.output
  pure (UInt32.ofNat outcome.status)
