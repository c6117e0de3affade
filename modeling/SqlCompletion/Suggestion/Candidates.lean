import SqlCompletion.Context
import SqlCompletion.Schema.Basic
import SqlCompletion.Suggestion.Basic
import SqlCompletion.Text.LowerCase

/-!
The suggestions for a context.

After a dot the names before it decide: two names are a table of a database; one is, where columns
are expected, an alias in scope, else a table in scope, and otherwise a database. Elsewhere the
clause decides. The candidates are then narrowed to those that begin with the word being typed,
and of those that agree in category and small letters the first is kept.

* `candidates`: everything that the context allows, in order;
* `narrow`: the restriction to a typed word;
* `suggestions`: both in one.
-/

namespace SqlCompletion

open Text

/-- The operators offered in predicates. -/
def operatorTexts : List String :=
  ["=", "<>", "!=", "<", ">", "<=", ">=", "LIKE", "NOT LIKE", "IN", "NOT IN", "BETWEEN",
    "IS NULL", "IS NOT NULL", "AND", "OR"]

/-! ### Parts of the schema as suggestions -/

/-- The columns of a table with their types. -/
def columnsOf (table : Table) : List Suggestion :=
  table.columns.map fun c => ⟨c.name, .column, some c.dataType⟩

/-- The tables of a database. -/
def tablesOf (database : Database) : List Suggestion :=
  database.tables.map fun t => ⟨t.name, .table, some database.name⟩

/-- Names of one category, in order. -/
def namesAs (category : Category) (names : List String) : List Suggestion :=
  names.map fun n => ⟨n, category, none⟩

/-- The columns of the table a reference means, none when the schema has no such table. The
database of the reference is the hint, else the selected one. -/
def columnsOfReference (context : Context) (schema : Schema) (r : TableReference) :
    List Suggestion :=
  match schema.findTable? (r.database.or context.selectedDatabase) r.table with
  | some (_, table) => columnsOf table
  | none => []

/-- The name by which a reference is addressed, with the table behind an alias. -/
def qualifierOf (r : TableReference) : Suggestion :=
  ⟨r.qualifier, .table, if r.aliasName.isSome then some r.table else none⟩

/-- What an expression may name: the columns of every table in scope, then the names by which
the tables are addressed. -/
def expressionNames (context : Context) (schema : Schema) : List Suggestion :=
  context.visibleTables.flatMap (columnsOfReference context schema) ++
    context.visibleTables.map qualifierOf

/-- The tables of the selected database, or of all when none is found, then all databases. -/
def tableNames (context : Context) (schema : Schema) : List Suggestion :=
  (match context.selectedDatabase.bind schema.database? with
    | some database => tablesOf database
    | none => schema.databases.flatMap tablesOf) ++
  schema.databases.map fun d => ⟨d.name, .database, none⟩

/-! ### After a dot -/

/-- The reference in scope that a name before a dot means: an alias before a table name. -/
def referenceNamed? (name : String) (visible : List TableReference) : Option TableReference :=
  (visible.find? fun r => r.aliasName.any fun a => equalIgnoringCase a name).or
    (visible.find? fun r => equalIgnoringCase r.table name)

/-- The candidates after a dot. -/
def dottedCandidates (context : Context) (schema : Schema) : List Suggestion :=
  match context.databasePart, context.tablePart with
  | none, _ => []
  | some database, some table =>
    match schema.findTable? (some database) table with
    | some (_, table) => columnsOf table
    | none => []
  | some name, none =>
    match if context.clause.bearsColumns then referenceNamed? name context.visibleTables
      else none with
    | some r => columnsOfReference context schema r
    | none =>
      match schema.database? name with
      | some database => tablesOf database
      | none => []

/-! ### By clause -/

/-- The candidates of a clause, where no dot precedes the word. -/
def clauseCandidates (context : Context) (schema : Schema) (functions keywords : List String) :
    List Suggestion :=
  match context.clause with
  | .SELECT | .GROUP_BY | .ORDER_BY =>
    expressionNames context schema ++ namesAs .function functions ++ namesAs .keyword keywords
  | .WHERE | .HAVING | .ON =>
    expressionNames context schema ++ namesAs .function functions ++ namesAs .keyword keywords ++
      namesAs .operator operatorTexts
  | .SET =>
    (context.targetTable.toList ++ context.fromTables).flatMap
        (columnsOfReference context schema) ++
      namesAs .keyword keywords
  | .INSERT =>
    match context.targetTable.filter fun target => target.nameEnd < context.wordStart with
    | some target => columnsOfReference context schema target
    | none => tableNames context schema ++ namesAs .keyword keywords
  | .VALUES => namesAs .function functions ++ namesAs .keyword keywords
  | clause =>
    if clause.expectsTable then tableNames context schema ++ namesAs .keyword keywords
    else namesAs .keyword keywords

/-- Everything a context allows, in order. -/
def candidates (context : Context) (schema : Schema) (functions keywords : List String) :
    List Suggestion :=
  if context.isAfterDot then dottedCandidates context schema
  else clauseCandidates context schema functions keywords

/-! ### Narrowing -/

/-- The elements whose key is not among `seen`, the first of each key. -/
def firstOfEach {α κ : Type} [BEq κ] (key : α → κ) : List κ → List α → List α
  | _, [] => []
  | seen, x :: xs =>
    if seen.contains (key x) then firstOfEach key seen xs
    else x :: firstOfEach key (key x :: seen) xs

/-- A label begins with a word, both in small letters. -/
def beginsWith (word : String) (label : String) : Bool :=
  (lower word).toList.isPrefixOf (lower label).toList

/-- What makes two suggestions the same to the user. -/
def identityOf (s : Suggestion) : Category × String :=
  (s.category, lower s.label)

/-- The suggestions that begin with a word, the first of those that are the same to the user. -/
def narrow (word : String) (all : List Suggestion) : List Suggestion :=
  firstOfEach identityOf [] (all.filter fun s => beginsWith word s.label)

/-- The suggestions for a context, in the order in which they are built. -/
def suggestions (context : Context) (schema : Schema) (functions keywords : List String) :
    List Suggestion :=
  narrow context.currentWord (candidates context schema functions keywords)

end SqlCompletion
