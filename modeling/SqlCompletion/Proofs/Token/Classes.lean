import SqlCompletion.Proofs.Text.Ascii
import SqlCompletion.Token.Lexer

/-!
The classes of characters that the lexer tells apart.

* `IsAsciiClass`: a class of ASCII characters only, as all classes of the lexer are.
-/

namespace SqlCompletion

open Text

/-- The class has ASCII characters only. -/
def IsAsciiClass (p : Char → Bool) : Prop :=
  ∀ c, p c = true → c.toNat < 128

lemma IsAsciiClass.eq_false {p : Char → Bool} (h : IsAsciiClass p) {c : Char}
    (hc : 128 ≤ c.toNat) : p c = false := by
  by_contra hp
  exact absurd (h c (by simpa using hp)) (Nat.not_lt.mpr hc)

lemma ne_of_le_toNat {c d : Char} (hc : 128 ≤ c.toNat) (hd : d.toNat < 128) : c ≠ d := by
  rintro rfl
  exact absurd hd (Nat.not_lt.mpr hc)

lemma isAsciiClass_isBlank : IsAsciiClass isBlank := by
  intro c h
  simp only [isBlank, Bool.or_eq_true, decide_eq_true_eq] at h
  rcases h with (((rfl | rfl) | rfl) | rfl) | rfl <;> decide

lemma isAsciiClass_isDigit : IsAsciiClass Char.isDigit := by
  intro c h
  rw [isDigit_iff] at h
  omega

lemma isAsciiClass_isNumberChar : IsAsciiClass isNumberChar := by
  intro c h
  simp only [isNumberChar, Bool.or_eq_true, decide_eq_true_eq] at h
  rcases h with h | rfl
  · exact isAsciiClass_isDigit c h
  · decide

lemma isAsciiClass_isOperatorChar : IsAsciiClass isOperatorChar := by
  intro c h
  simp only [isOperatorChar, Bool.or_eq_true, decide_eq_true_eq] at h
  rcases h with (((((((rfl | rfl) | rfl) | rfl) | rfl) | rfl) | rfl) | rfl) | rfl <;> decide

lemma isAsciiClass_isWordChar : IsAsciiClass isWordChar := by
  intro c h
  simp only [isWordChar, Char.isAlphanum, isAlpha_iff, Bool.or_eq_true, decide_eq_true_eq,
    isUpper_iff, isLower_iff, isDigit_iff] at h
  rcases h with h | rfl
  · omega
  · decide

lemma isWordChar_of_opensWord {c : Char} (h : opensWord c = true) : isWordChar c = true := by
  simp only [opensWord, isWordChar, Char.isAlphanum, Bool.or_eq_true] at h ⊢
  exact h.imp_left Or.inl

lemma isAsciiClass_opensWord : IsAsciiClass opensWord :=
  fun c h => isAsciiClass_isWordChar c (isWordChar_of_opensWord h)

lemma punctuation?_of_le_toNat {c : Char} (h : 128 ≤ c.toNat) : punctuation? c = none := by
  simp [punctuation?, ne_of_le_toNat h (d := '.') (by decide),
    ne_of_le_toNat h (d := ',') (by decide), ne_of_le_toNat h (d := '(') (by decide),
    ne_of_le_toNat h (d := ')') (by decide)]

end SqlCompletion
