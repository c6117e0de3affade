import Mathlib.Tactic
import SqlCompletion.Alias.Generation

/-!
The numbers of aliases, counted in 32 bits.

* `repr_eq_repr_iff`: a number is written like a natural one only if it is this one;
* `numberedAlias_ofNat`: numbers of 31 bits are written as they are;
* `freeNumber?_eq_some_iff`, `freeNumber?_eq_none_iff`: the number that is found is the first in the
  count whose alias is free, and none is found where all in the count are taken;
* `freeNumber?_of_stops`: a number that is found before the counter would be stopped is found
  however the program is built.
-/

namespace SqlCompletion

/-! ### Numbers as they are written -/

lemma natRepr_injective : Function.Injective Nat.repr := by
  intro m n h
  have hdigits : Nat.toDigits 10 m = Nat.toDigits 10 n := by
    simpa using congrArg String.toList h
  calc
    m = Nat.ofDigitChars 10 (Nat.toDigits 10 m) 0 := Nat.ofDigitChars_ten_toDigits.symm
    _ = Nat.ofDigitChars 10 (Nat.toDigits 10 n) 0 := by rw [hdigits]
    _ = n := Nat.ofDigitChars_ten_toDigits

lemma isDigit_of_mem_natRepr {n : ℕ} {c : Char} (h : c ∈ n.repr.toList) : c.isDigit = true := by
  have hmem : c ∈ Nat.toDigits 10 n := by simpa using h
  exact Nat.isDigit_of_mem_toDigits (by omega) (by omega) hmem

lemma repr_negSucc (n : ℕ) : (Int.negSucc n).repr = "-" ++ n.succ.repr :=
  rfl

/-- A number is written with digits, after a sign where it is negative. -/
lemma eq_or_isDigit_of_mem_repr {a : ℤ} {c : Char} (h : c ∈ a.repr.toList) :
    c = '-' ∨ c.isDigit = true := by
  cases a with
  | ofNat n => exact .inr (isDigit_of_mem_natRepr h)
  | negSucc n =>
      rw [repr_negSucc, String.toList_append, List.mem_append] at h
      rcases h with h | h
      · exact .inl (by simpa using h)
      · exact .inr (isDigit_of_mem_natRepr h)

lemma exists_isDigit_mem_repr (a : ℤ) : ∃ c ∈ a.repr.toList, c.isDigit = true := by
  have hnat : ∀ n : ℕ, ∃ c ∈ n.repr.toList, c.isDigit = true := fun n => by
    obtain ⟨c, hc⟩ := List.exists_mem_of_ne_nil n.repr.toList (by simp)
    exact ⟨c, hc, isDigit_of_mem_natRepr hc⟩
  cases a with
  | ofNat n => exact hnat n
  | negSucc n =>
      obtain ⟨c, hc, hdigit⟩ := hnat n.succ
      refine ⟨c, ?_, hdigit⟩
      rw [repr_negSucc, String.toList_append]
      exact List.mem_append_right _ hc

/-- No other number is written like a natural one. -/
lemma repr_eq_repr_iff {a : ℤ} {n : ℕ} : a.repr = n.repr ↔ a = n := by
  constructor
  · intro h
    cases a with
    | ofNat m => exact congrArg Int.ofNat (natRepr_injective h)
    | negSucc m =>
        have hsign : '-' ∈ (Int.negSucc m).repr.toList := by
          rw [repr_negSucc, String.toList_append]
          simp
        rw [h] at hsign
        have hdigit := isDigit_of_mem_natRepr hsign
        simp at hdigit
  · rintro rfl
    rfl

lemma numberedAlias_eq_iff {stem : String} {m : Int32} {n : ℕ} :
    numberedAlias stem m = stem ++ n.repr ↔ m.toInt = n := by
  rw [numberedAlias, String.append_right_inj, repr_eq_repr_iff]

/-- Numbers of 31 bits are written as they are. -/
lemma numberedAlias_ofNat (stem : String) {n : ℕ} (h : n < 2 ^ 31) :
    numberedAlias stem (Int32.ofNat n) = stem ++ n.repr :=
  numberedAlias_eq_iff.mpr (Int32.toInt_ofNat_of_lt h)

/-! ### Counting -/

lemma Overflow.values_stops : Overflow.stops.values = 2 ^ 31 - 1 :=
  rfl

lemma Overflow.values_wraps : Overflow.wraps.values = 2 ^ 32 :=
  rfl

/-- However the program is built, the counter comes to its greatest value. -/
lemma Overflow.values_stops_le (overflow : Overflow) :
    Overflow.stops.values ≤ overflow.values := by
  cases overflow <;> decide

/-- Every number is counted by a counter that is not stopped. -/
lemma Overflow.exists_ofNat_eq (n : Int32) :
    ∃ i, 1 ≤ i ∧ i ≤ Overflow.wraps.values ∧ Int32.ofNat i = n := by
  have hle := n.le_toInt
  have hlt := n.toInt_lt
  rw [values_wraps]
  by_cases hpos : 0 < n.toInt
  · obtain ⟨i, hi⟩ := Int.eq_ofNat_of_zero_le (Int.le_of_lt hpos)
    refine ⟨i, by omega, by omega, ?_⟩
    rw [← Int32.ofInt_eq_ofNat, ← hi, Int32.ofInt_toInt]
  · -- the values that are not positive come after the greatest one
    obtain ⟨i, hi⟩ := Int.eq_ofNat_of_zero_le (a := n.toInt + 2 ^ 32) (by omega)
    refine ⟨i, by omega, by omega, ?_⟩
    have hround : Int32.ofInt (2 ^ 32) = 0 := by decide
    rw [← Int32.ofInt_eq_ofNat, ← hi, Int32.ofInt_add, Int32.ofInt_toInt, hround, Int32.add_zero]

section Count

variable {overflow : Overflow} {stem : String} {taken : List String}

/-- The count goes through the natural numbers, each taken as a number of 32 bits. -/
lemma freeNumberFrom?_ofNat (left start : ℕ) :
    freeNumberFrom? stem taken left (Int32.ofNat start) =
      ((List.range' start left).find? fun i =>
        !taken.contains (numberedAlias stem (Int32.ofNat i))).map Int32.ofNat := by
  induction left generalizing start with
  | zero => rfl
  | succ left ih =>
      have hnext : Int32.ofNat start + 1 = Int32.ofNat (start + 1) :=
        (Int32.ofNat_add start 1).symm
      rw [freeNumberFrom?, hnext, ih, List.range'_succ, List.find?_cons]
      cases taken.contains (numberedAlias stem (Int32.ofNat start)) <;> rfl

lemma freeNumber?_eq (overflow : Overflow) (stem : String) (taken : List String) :
    freeNumber? overflow stem taken =
      ((List.range' 1 overflow.values).find? fun i =>
        !taken.contains (numberedAlias stem (Int32.ofNat i))).map Int32.ofNat :=
  freeNumberFrom?_ofNat overflow.values 1

/-- The number that is found is the first in the count whose alias is free. -/
lemma freeNumber?_eq_some_iff {n : Int32} :
    freeNumber? overflow stem taken = some n ↔
      ∃ i, 1 ≤ i ∧ i ≤ overflow.values ∧ Int32.ofNat i = n ∧ numberedAlias stem n ∉ taken ∧
        ∀ j, 1 ≤ j → j < i → numberedAlias stem (Int32.ofNat j) ∈ taken := by
  rw [freeNumber?_eq, Option.map_eq_some_iff]
  refine exists_congr fun i => ?_
  rw [List.find?_range'_eq_some, List.mem_range'_1]
  constructor
  · rintro ⟨⟨hfree, hi, hleast⟩, rfl⟩
    exact ⟨hi.1, by omega, rfl, by simpa using hfree, fun j h1 hj => by simpa using hleast j h1 hj⟩
  · rintro ⟨h1, hi, rfl, hfree, hleast⟩
    exact ⟨⟨by simpa using hfree, ⟨h1, by omega⟩, fun j h1 hj => by simpa using hleast j h1 hj⟩, rfl⟩

/-- None is found where all in the count are taken. -/
lemma freeNumber?_eq_none_iff :
    freeNumber? overflow stem taken = none ↔
      ∀ i, 1 ≤ i → i ≤ overflow.values → numberedAlias stem (Int32.ofNat i) ∈ taken := by
  rw [freeNumber?_eq, Option.map_eq_none_iff, List.find?_eq_none]
  refine forall_congr' fun i => ?_
  rw [List.mem_range'_1, and_imp]
  refine forall_congr' fun _ => imp_congr ?_ ?_
  · omega
  · simp

/-- A number that is found before the counter would be stopped is found however the program is
built. -/
lemma freeNumber?_of_stops {n : Int32} (h : freeNumber? .stops stem taken = some n) :
    freeNumber? overflow stem taken = some n := by
  obtain ⟨i, h1, hi, hn⟩ := freeNumber?_eq_some_iff.mp h
  exact freeNumber?_eq_some_iff.mpr ⟨i, h1, hi.trans overflow.values_stops_le, hn⟩

end Count

end SqlCompletion
