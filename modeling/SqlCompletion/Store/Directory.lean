import SqlCompletion.FileSystem
import SqlCompletion.Store.Basic

/-!
A store that keeps each text in a file of its own.

A text is written to a temporary file, which then takes the place of the text's file, so that a
reader finds the old text or the new one and nothing between.

* `fileName`: the name of a key's file, different for different keys;
* `DirectoryStore`: the store over a file system;
* `DirectoryStore.get`, `DirectoryStore.set`: its operations.
-/

namespace SqlCompletion

/-- The bytes that stand for themselves in a file name. -/
def isPlainByte (b : UInt8) : Bool :=
  (97 ≤ b && b ≤ 122) || (65 ≤ b && b ≤ 90) || (48 ≤ b && b ≤ 57) || b = 46 || b = 45

/-- A byte of a key in a file name: an ASCII letter, digit, dot or dash as it is, any other as a
percent sign and two hexadecimal digits. -/
def nameOfByte (b : UInt8) : List Char :=
  if isPlainByte b then [Char.ofNat b.toNat]
  else ['%', (Nat.digitChar (b.toNat / 16)).toUpper, (Nat.digitChar (b.toNat % 16)).toUpper]

/-- A key as the stem of a file name. -/
def fileStem (key : String) : String :=
  String.ofList (key.toByteArray.data.toList.flatMap nameOfByte)

/-- The name of a key's file. -/
def fileName (key : String) : String :=
  fileStem key ++ ".json"

/-- A store in a directory of a file system. -/
structure DirectoryStore where
  files : FileSystem
  directory : Path
  deriving Inhabited

namespace DirectoryStore

/-- The path of a key's file. -/
def filePath (store : DirectoryStore) (key : String) : Path :=
  store.directory ++ [fileName key]

/-- The path to which a key's text is written first: that of its file with the extension
`json.tmp` in place of the last one. The file of the empty key has a name that is all stem, and
cutting the extension from the file of `.` leaves the name of the directory above. -/
def temporaryPath (store : DirectoryStore) (key : String) : Path :=
  if key = "" then store.directory ++ [".json.json.tmp"]
  else if key = "." then store.directory.dropLast
  else store.directory ++ [fileStem key ++ ".json.tmp"]

/-- The text of a key. A missing file is no failure. -/
def get (key : String) (store : DirectoryStore) : Except Error (Option String) :=
  match store.files.read (store.filePath key) with
  | .ok text => .ok (some text)
  | .error .notFound => .ok none
  | .error fault => .error (.io fault)

/-- One step of writing: what an operation on the files gives, and the store after it. -/
def step (operation : FileSystem → Except FileFault FileSystem) (store : DirectoryStore) :
    Except Error Unit × DirectoryStore :=
  match operation store.files with
  | .ok files => (.ok (), { store with files })
  | .error fault => (.error (.io fault), store)

/-- Puts a text under a key: the directory is made, the temporary file is written and then takes
the place of the key's file. What was done before a failure stays. -/
def set (key text : String) (store : DirectoryStore) : Except Error Unit × DirectoryStore :=
  match store.step (·.createDirectories store.directory) with
  | (.error e, store) => (.error e, store)
  | (.ok (), store) =>
    match store.step (·.write (store.temporaryPath key) text.toByteArray) with
    | (.error e, store) => (.error e, store)
    | (.ok (), store) => store.step (·.rename (store.temporaryPath key) (store.filePath key))

end DirectoryStore

instance : Store DirectoryStore where
  read key store := (store.get key, store)
  write := DirectoryStore.set

end SqlCompletion
