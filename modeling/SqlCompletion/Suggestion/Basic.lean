/-!
Suggestions: what a word may be completed to.

* `Category`: what a suggestion is, with its name and its rank among the others;
* `Suggestion`: a label with its category and a detail;
* `Suggestion.key`: the key under which its use is counted.
-/

namespace SqlCompletion

/-- What a suggestion completes to. -/
inductive Category
  | column
  | table
  | database
  | function
  | keyword
  | operator
  deriving DecidableEq, Repr

namespace Category

/-- Every category. -/
def all : List Category :=
  [column, table, database, function, keyword, operator]

/-- The name of a category. -/
def name : Category → String
  | column => "column"
  | table => "table"
  | database => "database"
  | function => "function"
  | keyword => "keyword"
  | operator => "operator"

/-- The category with a name. -/
def ofName? (name : String) : Option Category :=
  all.find? (·.name == name)

/-- The rank before use is taken into account; the lower is shown first. -/
def basePriority : Category → Nat
  | column => 10
  | table => 20
  | database => 25
  | function => 30
  | keyword => 40
  | operator => 50

/-- Each category is found by its name. -/
theorem ofName?_name (c : Category) : ofName? c.name = some c := by
  cases c <;> decide

/-- The key under which the use of a label in a category is counted. -/
def key (category : Category) (label : String) : String :=
  category.name ++ ":" ++ label

end Category

/-- Something a word may be completed to. -/
structure Suggestion where
  label : String
  category : Category
  /-- The type of a column, or the database of a table, or the table behind an alias. -/
  detail : Option String := none
  deriving DecidableEq, Repr

namespace Suggestion

/-- The key under which the use of the suggestion is counted. -/
def key (s : Suggestion) : String :=
  s.category.key s.label

end Suggestion

end SqlCompletion
