/-!
The words that end or begin a part of a SQL query.

Only clause boundaries and the words that combine with them are keywords. All other words,
`AND` and type names included, are identifiers, so that a keyword is always a hard stop for the
readers of table names and aliases.

* `Keyword`, `Keyword.all`, `Keyword.spelling`: the keywords and how they are written;
* `Keyword.ofUpper?`: the keyword an upper-case word spells;
* `Keyword.joinModifiers`, `Keyword.isJoinLike`: `JOIN` and the words that may precede it.
-/

namespace SqlCompletion

/-- A word that takes part in the division of a query into clauses. -/
inductive Keyword
  | SELECT | FROM | WHERE | GROUP | ORDER | BY | HAVING
  | JOIN | INNER | LEFT | RIGHT | FULL | CROSS | OUTER | NATURAL
  | ON | USING | LIMIT | OFFSET | UNION | INTERSECT | EXCEPT
  | INSERT | INTO | UPDATE | DELETE | SET | VALUES | AS | WITH
  deriving DecidableEq, Repr

namespace Keyword

/-- Every keyword, in the order in which they are offered. -/
def all : List Keyword :=
  [SELECT, FROM, WHERE, GROUP, ORDER, BY, HAVING,
    JOIN, INNER, LEFT, RIGHT, FULL, CROSS, OUTER, NATURAL,
    ON, USING, LIMIT, OFFSET, UNION, INTERSECT, EXCEPT,
    INSERT, INTO, UPDATE, DELETE, SET, VALUES, AS, WITH]

/-- The canonical, upper-case spelling. -/
def spelling : Keyword → String
  | SELECT => "SELECT"
  | FROM => "FROM"
  | WHERE => "WHERE"
  | GROUP => "GROUP"
  | ORDER => "ORDER"
  | BY => "BY"
  | HAVING => "HAVING"
  | JOIN => "JOIN"
  | INNER => "INNER"
  | LEFT => "LEFT"
  | RIGHT => "RIGHT"
  | FULL => "FULL"
  | CROSS => "CROSS"
  | OUTER => "OUTER"
  | NATURAL => "NATURAL"
  | ON => "ON"
  | USING => "USING"
  | LIMIT => "LIMIT"
  | OFFSET => "OFFSET"
  | UNION => "UNION"
  | INTERSECT => "INTERSECT"
  | EXCEPT => "EXCEPT"
  | INSERT => "INSERT"
  | INTO => "INTO"
  | UPDATE => "UPDATE"
  | DELETE => "DELETE"
  | SET => "SET"
  | VALUES => "VALUES"
  | AS => "AS"
  | WITH => "WITH"

/-- The keyword spelled by a word in upper case. -/
def ofUpper? (word : String) : Option Keyword :=
  all.find? (·.spelling == word)

/-- The words that only ever stand before `JOIN`. -/
def joinModifiers : List Keyword :=
  [INNER, LEFT, RIGHT, FULL, CROSS, OUTER, NATURAL]

/-- `JOIN` itself or a word that may stand before it. -/
def isJoinLike (k : Keyword) : Bool :=
  k == JOIN || joinModifiers.contains k

/-- No keyword is missing from the list of all. -/
theorem mem_all (k : Keyword) : k ∈ all := by
  cases k <;> decide

/-- A keyword is found by its own spelling. -/
theorem ofUpper?_spelling (k : Keyword) : ofUpper? k.spelling = some k := by
  cases k <;> decide

end Keyword

end SqlCompletion
