import SqlCompletion.Token

/-!
The clause a place in a query belongs to.

Nesting is not tracked: the nearest keyword before the place that names a clause decides, so a
`WHERE` of a subquery reads like one of the query.

* `Clause`, `Clause.ofKeyword?`: the clauses and the keywords that name one by themselves;
* `Clause.opened?`: the clause a keyword names after a given word, which matters for `BY` and
  `INTO`;
* `Clause.nearest`: the clause in force after some tokens, given from the last to the first;
* `Clause.atIndex`: the clause at a token of a query.
-/

namespace SqlCompletion

/-- A part of a query, named for the keyword that opens it. -/
inductive Clause
  | SELECT | FROM | WHERE | JOIN | ON | GROUP_BY | ORDER_BY | HAVING
  | INSERT | UPDATE | DELETE | SET | VALUES | UNKNOWN
  deriving DecidableEq, Repr, Inhabited

namespace Clause

/-- Every clause. -/
def all : List Clause :=
  [SELECT, FROM, WHERE, JOIN, ON, GROUP_BY, ORDER_BY, HAVING,
    INSERT, UPDATE, DELETE, SET, VALUES, UNKNOWN]

/-- The name of a clause. -/
def name : Clause → String
  | SELECT => "SELECT"
  | FROM => "FROM"
  | WHERE => "WHERE"
  | JOIN => "JOIN"
  | ON => "ON"
  | GROUP_BY => "GROUP_BY"
  | ORDER_BY => "ORDER_BY"
  | HAVING => "HAVING"
  | INSERT => "INSERT"
  | UPDATE => "UPDATE"
  | DELETE => "DELETE"
  | SET => "SET"
  | VALUES => "VALUES"
  | UNKNOWN => "UNKNOWN"

/-- The clause a keyword names whatever stands before it. -/
def ofKeyword? : Keyword → Option Clause
  | .SELECT => some SELECT
  | .FROM => some FROM
  | .WHERE => some WHERE
  | .ON => some ON
  | .HAVING => some HAVING
  | .INSERT => some INSERT
  | .UPDATE => some UPDATE
  | .DELETE => some DELETE
  | .SET => some SET
  | .VALUES => some VALUES
  | k => if k.isJoinLike then some JOIN else none

/-- Expressions of the clause refer to columns. -/
def bearsColumns : Clause → Bool
  | SELECT | WHERE | ON | GROUP_BY | ORDER_BY | HAVING | SET => true
  | _ => false

/-- The clause names a table next. -/
def expectsTable : Clause → Bool
  | FROM | JOIN | UPDATE | DELETE => true
  | _ => false

/-- The clause a keyword names after the keyword `before`, if that is what precedes it. `BY` and
`INTO` name one only after the word they belong to. -/
def opened? (before : Option Keyword) : Keyword → Option Clause
  | .BY =>
    match before with
    | some .GROUP => some GROUP_BY
    | some .ORDER => some ORDER_BY
    | _ => none
  | .INTO => if before = some .INSERT then some INSERT else none
  | k => ofKeyword? k

end Clause

/-- The nearest token that is not trivia is this keyword; the tokens are given from the last to
the first. -/
def lastKeyword? (earlier : List Token) : Option Keyword :=
  (earlier.find? fun t => !t.isTrivia).bind (·.kind.keyword?)

namespace Clause

/-- The clause in force after tokens that are given from the last to the first. -/
def nearest : List Token → Clause
  | [] => UNKNOWN
  | t :: earlier =>
    match t.kind.keyword?.bind (opened? (lastKeyword? earlier)) with
    | some clause => clause
    | none => nearest earlier

/-- The clause at the token with the given index, or at the last token past the end. -/
def atIndex (tokens : List Token) (index : Nat) : Clause :=
  nearest (tokens.take (index + 1)).reverse

end Clause

end SqlCompletion
