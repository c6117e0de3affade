/-!
Sets of characters given by ranges of code points.

* `Ranges`: pairs of a first and a last code point;
* `Ranges.holds`: membership of a character in the union of the ranges.
-/

namespace SqlCompletion.Text

/-- Ranges of code points, each with its first and its last member. -/
abbrev Ranges := List (Nat × Nat)

/-- A character belongs to the ranges when one of them spans its code point. -/
def Ranges.holds (ranges : Ranges) (c : Char) : Bool :=
  ranges.any fun r => r.1 ≤ c.toNat && c.toNat ≤ r.2

end SqlCompletion.Text
