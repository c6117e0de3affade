import SqlCompletion.Text.Ascii

/-!
The databases, tables and columns that can be completed to.

Writing goes by exact names and keeps the place of a name that is there already; looking up
ignores the case of ASCII letters and takes the first name that fits.

* `Column`, `Table`, `Database`, `Schema`: the tree;
* `putBy`: a write into a sequence of named things;
* `Table.insertColumn`, `Database.insertTable`, `Database.insertColumn`, `Schema.insertDatabase`,
  `Schema.insertTable`: writing;
* `Database.table?`, `Schema.database?`, `Schema.findTable?`: looking up.
-/

namespace SqlCompletion

open Text

/-- A column with its type. -/
structure Column where
  name : String
  dataType : String
  deriving DecidableEq, Repr

/-- A table with its columns in the order they were reported. -/
structure Table where
  name : String
  columns : List Column
  deriving DecidableEq, Repr

/-- A database with its tables. -/
structure Database where
  name : String
  tables : List Table
  deriving DecidableEq, Repr

/-- The databases of a connection. -/
structure Schema where
  databases : List Database := []
  deriving DecidableEq, Repr, Inhabited

/-- Changes the first element that passes the test, or appends `fresh` when none does. -/
def putBy {α : Type} (test : α → Bool) (change : α → α) (fresh : α) : List α → List α
  | [] => [fresh]
  | x :: xs => if test x then change x :: xs else x :: putBy test change fresh xs

namespace Table

/-- Writes a column in the place of the one with its name, or at the end. -/
def insertColumn (column : Column) (table : Table) : Table :=
  { table with columns := putBy (·.name == column.name) (fun _ => column) column table.columns }

end Table

namespace Database

/-- The first table with a name, ASCII case ignored. -/
def table? (name : String) (database : Database) : Option Table :=
  database.tables.find? fun t => equalIgnoringCase t.name name

/-- Writes a table in the place of the one with its name, or at the end. -/
def insertTable (table : Table) (database : Database) : Database :=
  { database with tables := putBy (·.name == table.name) (fun _ => table) table database.tables }

/-- Writes a column into a table, which is created when it is missing. -/
def insertColumn (tableName : String) (column : Column) (database : Database) : Database :=
  { database with
    tables := putBy (·.name == tableName) (·.insertColumn column) ⟨tableName, [column]⟩
      database.tables }

end Database

namespace Schema

/-- The first database with a name, ASCII case ignored. -/
def database? (name : String) (schema : Schema) : Option Database :=
  schema.databases.find? fun d => equalIgnoringCase d.name name

/-- Writes a database in the place of the one with its name, or at the end. -/
def insertDatabase (database : Database) (schema : Schema) : Schema :=
  { schema with
    databases := putBy (·.name == database.name) (fun _ => database) database schema.databases }

/-- Writes a table into a database, which is created when it is missing. -/
def insertTable (databaseName : String) (table : Table) (schema : Schema) : Schema :=
  { schema with
    databases := putBy (·.name == databaseName) (·.insertTable table) ⟨databaseName, [table]⟩
      schema.databases }

/-- The table with a name in a database, with that database. -/
def tableIn? (table : String) (database : Database) : Option (Database × Table) :=
  (database.table? table).map fun t => (database, t)

/-- The table with a name, in the hinted database if it has one, else in the first that does. A
missing or outdated hint still finds the table. -/
def findTable? (hint : Option String) (table : String) (schema : Schema) :
    Option (Database × Table) :=
  ((hint.bind schema.database?).bind (tableIn? table)).or
    (schema.databases.findSome? (tableIn? table))

end Schema

end SqlCompletion
