import SqlCompletion.Error

/-!
Files and directories as a value, and the operations on them that a store needs. A path is the
list of the names that lead to it. An operation that fails changes nothing.

* `FileSystem`, `FileSystem.node?`: what stands at each path;
* `FileSystem.locate`: following a path, with the faults on the way;
* `FileSystem.read`, `FileSystem.write`, `FileSystem.rename`, `FileSystem.createDirectories`:
  the operations;
* `FileSystem.readAt`: reading by a path as it is written, with slashes and dots.
-/

namespace SqlCompletion

/-- The names that lead to a file or directory from the root. -/
abbrev Path := List String

/-- What stands at a path. -/
inductive Node
  | file (bytes : ByteArray)
  | directory
  deriving Inhabited

/-- Files and directories below a root directory. There are no links, so that two paths never lead
to one file. -/
structure FileSystem where
  nodes : List (Path × Node) := []
  deriving Inhabited

namespace FileSystem

/-- The greatest number of bytes a name may have. -/
def nameLimit : Nat := 255

/-- The greatest number of bytes a written path may have. -/
def pathLimit : Nat := 4095

/-- What stands at a path. -/
def node? (fs : FileSystem) (path : Path) : Option Node :=
  if path.isEmpty then some .directory else fs.nodes.lookup path

/-- Takes away what stands at a path and below it. -/
def remove (path : Path) (fs : FileSystem) : FileSystem :=
  ⟨fs.nodes.filter fun entry => !path.isPrefixOf entry.1⟩

/-- Puts a node at a path, in place of what stood there. A directory is empty when it is put. -/
def put (path : Path) (node : Node) (fs : FileSystem) : FileSystem :=
  ⟨(path, node) :: (fs.remove path).nodes⟩

/-- Follows names from a path that is reached, and tells what stands at the end. Every name but
the last must lead to a directory. -/
def locate (fs : FileSystem) (reached : Path) : Path → Except FileFault (Option Node)
  | [] => .ok (fs.node? reached)
  | name :: rest =>
    match fs.node? reached with
    | none => .error .notFound
    | some (.file _) => .error .notDirectory
    | some .directory =>
      if nameLimit < name.utf8ByteSize then .error .nameTooLong
      else locate fs (reached ++ [name]) rest

/-- The text of a file. -/
def read (path : Path) (fs : FileSystem) : Except FileFault String := do
  match ← fs.locate [] path with
  | none => throw .notFound
  | some .directory => throw .isDirectory
  | some (.file bytes) =>
    match String.fromUTF8? bytes with
    | some text => pure text
    | none => throw .notText

/-- Writes a whole file, which is created when it is missing. -/
def write (path : Path) (bytes : ByteArray) (fs : FileSystem) : Except FileFault FileSystem := do
  match ← fs.locate [] path with
  | some .directory => throw .isDirectory
  | _ => pure (fs.put path (.file bytes))

/-- Moves a file to another path, in place of the file there. -/
def rename (source target : Path) (fs : FileSystem) : Except FileFault FileSystem := do
  match ← fs.locate [] source with
  | none => throw .notFound
  | some node =>
    match ← fs.locate [] target with
    | some .directory => throw .isDirectory
    | _ => pure ((fs.remove source).put target node)

/-- Makes a directory of every path between a reached directory and the one that names lead to. -/
def createBelow (fs : FileSystem) (reached : Path) : Path → Except FileFault FileSystem
  | [] => .ok fs
  | name :: rest =>
    if nameLimit < name.utf8ByteSize then .error .nameTooLong
    else
      match fs.node? (reached ++ [name]) with
      | none => createBelow (fs.put (reached ++ [name]) .directory) (reached ++ [name]) rest
      | some .directory => createBelow fs (reached ++ [name]) rest
      | some (.file _) => .error (if rest.isEmpty then .alreadyExists else .notDirectory)

/-- Makes a directory with all those above it; one that exists stays as it is. -/
def createDirectories (path : Path) (fs : FileSystem) : Except FileFault FileSystem :=
  fs.createBelow [] path

/-- Follows the parts of a written path from a path that is reached. An empty part or a dot stays
where it is, and two dots go up; nothing lies above the root. -/
def follow (fs : FileSystem) (reached : Path) : List String → Except FileFault Path
  | [] => .ok reached
  | name :: rest =>
    match fs.node? reached with
    | none => .error .notFound
    | some (.file _) => .error .notDirectory
    | some .directory =>
      if name.isEmpty || name = "." then follow fs reached rest
      else if name = ".." then
        if reached.isEmpty then .error .notFound else follow fs reached.dropLast rest
      else follow fs (reached ++ [name]) rest

/-- The text of the file at a written path, which leads on from the root unless it begins with a
slash. -/
def readAt (path : String) (fs : FileSystem) : Except FileFault String := do
  if path.isEmpty || path.startsWith "/" then throw .notFound
  else if pathLimit < path.utf8ByteSize then throw .nameTooLong
  else fs.read (← fs.follow [] (path.splitOn "/"))

end FileSystem

end SqlCompletion
