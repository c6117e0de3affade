import SqlCompletion.Error
import SqlCompletion.Schema.Basic

/-!
Where the metadata of a connection comes from.

* `MetadataKind`: the three kinds of metadata;
* `Source`: what loads them, each of which may fail;
* `Source.serving`: the same metadata for every connection;
* `Source.without`: a source some kinds of which cannot be reached.
-/

namespace SqlCompletion

/-- A kind of metadata, loaded on its own. -/
inductive MetadataKind
  | schema
  | functions
  | keywords
  deriving DecidableEq, Repr

namespace MetadataKind

/-- Every kind. -/
def all : List MetadataKind :=
  [schema, functions, keywords]

/-- The name of a kind. -/
def name : MetadataKind → String
  | schema => "schema"
  | functions => "functions"
  | keywords => "keywords"

end MetadataKind

/-- What loads the metadata of a connection. -/
structure Source where
  schema : String → Except Error Schema
  /-- The functions offered in expressions. -/
  functions : String → Except Error (List String)
  /-- The keywords offered where nothing better is known. -/
  keywords : String → Except Error (List String)

namespace Source

/-- The same metadata for every connection. -/
def serving (schema : Schema) (functions keywords : List String) : Source where
  schema _ := .ok schema
  functions _ := .ok functions
  keywords _ := .ok keywords

/-- The failure to reach a kind of metadata. -/
def unreachable (kind : MetadataKind) (connection : String) : Error :=
  .metadata (kind.name ++ " of " ++ connection ++ " unreachable")

/-- A source of which the given kinds cannot be reached. -/
def without (kinds : List MetadataKind) (source : Source) : Source where
  schema connection :=
    if kinds.contains .schema then .error (unreachable .schema connection)
    else source.schema connection
  functions connection :=
    if kinds.contains .functions then .error (unreachable .functions connection)
    else source.functions connection
  keywords connection :=
    if kinds.contains .keywords then .error (unreachable .keywords connection)
    else source.keywords connection

end Source

end SqlCompletion
