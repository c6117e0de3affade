import SqlCompletion.Error
import SqlCompletion.Json.Limits
import SqlCompletion.Json.Reader
import SqlCompletion.Json.Record
import SqlCompletion.Json.Writer
import SqlCompletion.Schema.Basic
import SqlCompletion.TextMap

/-!
The JSON forms of schemas.

The listed form, an object whose only field is `databases`, gives databases, tables and columns
as records, in order. The tree form maps names of databases to names of tables to columns. It has
no order of its own: databases and tables come out sorted by name, and of several with one name
the last is kept.

* `Schema.ofListed?`, `Schema.ofTree?`: reading the two forms;
* `Schema.parse`: the schema of a text, in the listed form if it has that form;
* `Schema.render`: the text of a schema in the listed form.
-/

namespace SqlCompletion

open Json

namespace Column

/-- A column as a record. -/
def toValue (c : Column) : Value :=
  .record [("name", .text c.name), ("type", .text c.dataType)]

/-- The column a value stands for. -/
def ofValue? (v : Value) : Option Column :=
  match v.toRecord? ["name", "type"] with
  | some [name, dataType] => do some ⟨← name.toText?, ← dataType.toText?⟩
  | _ => none

end Column

namespace Table

/-- A table as a record. -/
def toValue (t : Table) : Value :=
  .record [("name", .text t.name), ("columns", .array (t.columns.map Column.toValue))]

/-- The table a value stands for. -/
def ofValue? (v : Value) : Option Table :=
  match v.toRecord? ["name", "columns"] with
  | some [name, columns] => do some ⟨← name.toText?, ← columns.toList? Column.ofValue?⟩
  | _ => none

end Table

namespace Database

/-- A database as a record. -/
def toValue (d : Database) : Value :=
  .record [("name", .text d.name), ("tables", .array (d.tables.map Table.toValue))]

/-- The database a value stands for. -/
def ofValue? (v : Value) : Option Database :=
  match v.toRecord? ["name", "tables"] with
  | some [name, tables] => do some ⟨← name.toText?, ← tables.toList? Table.ofValue?⟩
  | _ => none

/-- The database with the given tables and their columns, sorted by name. -/
def ofTree (name : String) (tables : List (String × List Column)) : Database :=
  ⟨name, (TextMap.ofList tables).entries.map fun (table, columns) => ⟨table, columns⟩⟩

end Database

namespace Schema

/-- A schema in the listed form. -/
def toValue (s : Schema) : Value :=
  .record [("databases", .array (s.databases.map Database.toValue))]

/-- The schema a value in the listed form stands for. -/
def ofListed? (v : Value) : Option Schema :=
  match v.toRecord? ["databases"] with
  | some [databases] => do some ⟨← databases.toList? Database.ofValue?⟩
  | _ => none

/-- The schema a value in the tree form stands for. -/
def ofTree? (v : Value) : Option Schema := do
  let tree ← v.toFields? (Value.toFields? (Value.toList? Column.ofValue?))
  some ⟨(TextMap.ofList tree).entries.map fun (name, tables) => .ofTree name tables⟩

/-- The schema a value stands for in either form. -/
def ofValue? (v : Value) : Option Schema :=
  if v.withinLimits then (ofListed? v).or (ofTree? v) else none

/-- The schema of a JSON text. -/
def parse (raw : String) : Except Error Schema :=
  match (Value.parse? raw).bind ofValue? with
  | some s => .ok s
  | none => .error .serialization

/-- The text of a schema in the listed form. -/
def render (s : Schema) : String :=
  s.toValue.render

end Schema

end SqlCompletion
