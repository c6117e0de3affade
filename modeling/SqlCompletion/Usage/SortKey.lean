import SqlCompletion.Suggestion.Basic
import SqlCompletion.Text.LowerCase

/-!
The texts by which an editor sorts suggestions: a priority of two digits, a dash, and the label in
small letters.

* `useBoost`, `priority`: how use raises a suggestion;
* `sortKey`: the text.
-/

namespace SqlCompletion

open Text

/-- What use takes off a priority: the binary logarithm of one more than the count, at most 9. -/
def useBoost (count : UInt64) : Nat :=
  min (count.toNat + 1).log2 9

/-- The priority of a category at a count, never below 1. -/
def priority (category : Category) (count : UInt64) : Nat :=
  max (category.basePriority - useBoost count) 1

/-- A number below 100 in two digits. -/
def twoDigits (n : Nat) : List Char :=
  [Nat.digitChar (n / 10), Nat.digitChar (n % 10)]

/-- The sort key of a label in a category at a count. -/
def sortKey (label : String) (category : Category) (count : UInt64) : String :=
  String.ofList (twoDigits (priority category count) ++ '-' :: (lower label).toList)

end SqlCompletion
