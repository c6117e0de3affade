import SqlCompletion.Clause
import SqlCompletion.TableReference.Basic

/-!
The tables a query refers to.

* `TableReference.extract`: the references after every `FROM` and `JOIN` of the query, so that a
  table joined after the cursor is in scope as well;
* `TableReference.target?`: the table that the statement at a place updates or inserts into.
-/

namespace SqlCompletion.TableReference

/-- Every reference after a `FROM` or a `JOIN`, in order. The words that modify a join are keywords
of their own and begin no list. -/
def extract : List Token → List TableReference
  | [] => []
  | t :: rest =>
    if t.isKeyword .FROM || t.isKeyword .JOIN then
      (readList rest).1 ++ extract (readList rest).2
    else extract rest
termination_by tokens => tokens.length
decreasing_by
  · have := length_readList_le rest
    simp only [List.length_cons]
    omega
  · simp

/-- The token ends a statement. -/
def isSeparator (t : Token) : Bool :=
  t.kind = .unknown && t.value == ";"

/-- The table of the nearest `UPDATE` or `INSERT INTO` among the tokens before a place, given from
the last to the first, in a query that goes on with `after`. The search stops at a separator. -/
def targetBefore? : List Token → List Token → Option TableReference
  | [], _ => none
  | t :: earlier, after =>
    if isSeparator t then none
    else if t.isKeyword .UPDATE || (t.isKeyword .INTO && lastKeyword? earlier = some .INSERT) then
      (read? after).map (·.1)
    else targetBefore? earlier (t :: after)

/-- The target of the statement around the token with the given index, or around the last token
past the end. -/
def target? (tokens : List Token) (index : Nat) : Option TableReference :=
  targetBefore? (tokens.take (index + 1)).reverse (tokens.drop (index + 1))

end SqlCompletion.TableReference
