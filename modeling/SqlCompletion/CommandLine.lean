import SqlCompletion.Completer
import SqlCompletion.Schema.Format
import SqlCompletion.Settings
import SqlCompletion.Store.Directory

/-!
The command line program: it reads a query and prints the ranked completions for its end.

* `Host`: what the program needs of its surroundings;
* `Outcome`: what it leaves behind;
* `CommandLine.run`: the program, with the path of a schema file and a selected database as its
  arguments, both of which may be left out.
-/

namespace SqlCompletion

/-- What the program needs of its surroundings, in a monad that provides it. -/
structure Host (m : Type → Type) where
  /-- The text of the file at a path. -/
  fileText : String → m (Except FileFault String)
  /-- All of the input; none when it is no text. -/
  inputText : m (Option String)
  /-- The variables of the environment. -/
  environment : m (String → Option String)

/-- What the program leaves behind. -/
structure Outcome where
  status : Nat
  output : String
  deriving DecidableEq, Repr

namespace Outcome

/-- The program did its work. -/
def success (output : String) : Outcome := ⟨0, output⟩

/-- A schema or the input could not be read. -/
def failure : Outcome := ⟨1, ""⟩

/-- The settings were refused. -/
def badSettings : Outcome := ⟨101, ""⟩

end Outcome

namespace CommandLine

/-- The connection under which the program keeps its usage record. -/
def connection : String := "cli"

/-- The query that an input holds: the input without the ends of lines behind it. -/
def queryOfInput (input : String) : String :=
  String.ofList (input.toList.reverse.dropWhile fun c => c = '\r' || c = '\n').reverse

/-- The path of a name in a directory; the empty path is the directory the program runs in. -/
def joinPath (directory name : String) : String :=
  if directory.isEmpty || directory.endsWith "/" then directory ++ name
  else directory ++ "/" ++ name

/-- The line of a suggestion: sort key, category, label and detail, with tabs between them. -/
def lineOf (r : Ranked) : String :=
  let detail := match r.suggestion.detail with
    | some detail => "\t" ++ detail
    | none => ""
  r.sortText ++ "\t" ++ r.suggestion.category.name ++ "\t" ++ r.suggestion.label ++ detail ++ "\n"

/-- The schema that the text of a schema file gives. -/
def schemaOfFile? : Except FileFault String → Option Schema
  | .ok text => (Schema.parse text).toOption
  | .error _ => none

/-- The output for a query. Nothing is accepted in one run, so the time does not matter and the
stored usage record is only read. -/
def outputFor (settings : Settings) (schema : Schema) (database : Option String) (query : String)
    (stored : Option String) : String :=
  let store : MemoryStore := match stored with
    | some text => ⟨TextMap.empty.insert (storageKey connection) text⟩
    | none => {}
  let tracker := (Tracker.start store settings.matchWindow 0).switch connection 0
  let source := Source.serving schema [] (Keyword.all.map Keyword.spelling)
  let (completion, _) := Completer.complete source query (Text.byteLength query.toList) database 0
    ⟨{}, tracker⟩
  String.join (completion.items.map lineOf)

variable {m : Type → Type} [Monad m]

/-- The program after its schema is known: the input is read, then the settings. -/
def complete (host : Host m) (schema : Schema) (database : Option String) : m Outcome := do
  match ← host.inputText with
  | none => pure .failure
  | some input =>
    match Settings.load (← host.environment) (← host.fileText Settings.fileName) with
    | .error () => pure .badSettings
    | .ok settings =>
      let path := joinPath settings.usageDirectory (fileName (storageKey connection))
      let stored ← host.fileText path
      pure (.success (outputFor settings schema database (queryOfInput input) stored.toOption))

/-- The program. The schema file is read before anything else. -/
def run (host : Host m) : List String → m Outcome
  | [] => complete host {} none
  | path :: rest => do
    match schemaOfFile? (← host.fileText path) with
    | none => pure .failure
    | some schema => complete host schema rest.head?

end CommandLine

end SqlCompletion
