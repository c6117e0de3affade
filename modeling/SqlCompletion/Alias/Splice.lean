import SqlCompletion.Alias.Generation
import SqlCompletion.Text.Bytes

/-!
Writing aliases into the text of a query.

* `splice`: one alias, with a space before it, at its place;
* `applyInsertions`: all of them, from the last place to the first, so that a place is not moved
  by the aliases written before it.
-/

namespace SqlCompletion

open Text

/-- The text with one alias written into it. A place inside a character or past the end is passed
over. -/
def splice (cs : List Char) (insertion : Insertion) : List Char :=
  match splitAt? cs insertion.position with
  | some (before, after) => before ++ ' ' :: insertion.aliasName.toList ++ after
  | none => cs

/-- The insertions from the last place to the first; those of one place keep their order. -/
def fromLast (insertions : List Insertion) : List Insertion :=
  insertions.mergeSort fun a b => b.position ≤ a.position

/-- The query with all aliases written into it. -/
def applyInsertions (sql : String) (insertions : List Insertion) : String :=
  String.ofList ((fromLast insertions).foldl splice sql.toList)

end SqlCompletion
