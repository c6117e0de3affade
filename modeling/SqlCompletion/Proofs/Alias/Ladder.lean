import Mathlib.Data.Finset.Card
import Mathlib.Order.Interval.Finset.Nat
import SqlCompletion.Proofs.Alias.Numbering

/-!
The ladder of names that are tried as the alias of a table.

* `IsRung`: the names tried, from the first letter of the table's name down to the numbered ones;
* `HasFreeRung`: one of them is free whose number has 31 bits;
* `le_card_of_taken`: as long as all names are taken, there are as many of them;
* `freeAlias?_of_free`: the first free name is found if its number has 31 bits;
* `freeAlias?_isFirstFree`: the alias of a table is the first name on its ladder that is free, up to
  the greatest number;
* `freeAlias?_overflow`: beyond it no name on the ladder is found.
-/

namespace SqlCompletion

open Text

/-- The names tried as the alias of a table, in their order: its first letter, or `t` when it has
none, its first two characters, and the first of these names with the numbers 1, 2, 3 and so on. -/
inductive IsRung (table : String) : ℕ → String → Prop
  | letter {before c after} : table.toList = before ++ c :: after → isAlphabetic c = true →
      (∀ d ∈ before, isAlphabetic d = false) → IsRung table 0 (String.ofList (lowerChar c))
  | noLetter : (∀ c ∈ table.toList, isAlphabetic c = false) → IsRung table 0 "t"
  | pair : IsRung table 1 (String.ofList ((table.toList.take 2).flatMap lowerChar))
  | numbered {stem n} : IsRung table 0 stem → IsRung table (n + 2) (stem ++ toString (n + 1))

/-- A name on the ladder is free, with a number of 31 bits if it has one. -/
def HasFreeRung (table : String) (taken : List String) : Prop :=
  ∃ k ≤ 2 ^ 31, ∃ name, IsRung table k name ∧ name ∉ taken

/-! ### The names on the ladder -/

/-- The name at a place of the ladder. -/
def rung (table : String) : ℕ → String
  | 0 => aliasStem table
  | 1 => aliasPair table
  | n + 2 => aliasStem table ++ (n + 1).repr

lemma isRung_zero_iff {table name : String} : IsRung table 0 name ↔ name = aliasStem table := by
  rw [aliasStem]
  cases hfind : table.toList.find? isAlphabetic with
  | none =>
      have hnone : ∀ c ∈ table.toList, isAlphabetic c = false := by
        simpa using List.find?_eq_none.mp hfind
      constructor
      · rintro (⟨htable, hc, -⟩ | -)
        · rw [hnone _ (by simp [htable])] at hc
          cases hc
        · rfl
      · rintro rfl
        exact .noLetter hnone
  | some c =>
      constructor
      · rintro (⟨htable, hd, hbefore⟩ | hnone)
        · have hfirst : table.toList.find? isAlphabetic = some _ :=
            List.find?_eq_some_iff_append.mpr ⟨hd, _, _, htable, by simpa using hbefore⟩
          rw [hfind, Option.some_inj] at hfirst
          rw [hfirst]
        · have hc := List.find?_some hfind
          rw [hnone c (List.mem_of_find?_eq_some hfind)] at hc
          cases hc
      · rintro rfl
        obtain ⟨hc, before, after, htable, hbefore⟩ := List.find?_eq_some_iff_append.mp hfind
        exact .letter htable hc (by simpa using hbefore)

/-- There is one name at each place of the ladder. -/
lemma isRung_iff {table : String} {k : ℕ} {name : String} :
    IsRung table k name ↔ name = rung table k := by
  obtain _ | _ | n := k
  · exact isRung_zero_iff
  · exact ⟨fun | .pair => rfl, fun h => h ▸ .pair⟩
  · constructor
    · rintro ⟨⟩
      rename_i stem hstem
      rw [isRung_zero_iff.mp hstem]
      rfl
    · rintro rfl
      exact .numbered (isRung_zero_iff.mpr rfl)

lemma hasFreeRung_iff {table : String} {taken : List String} :
    HasFreeRung table taken ↔ ∃ k ≤ 2 ^ 31, rung table k ∉ taken := by
  simp only [HasFreeRung, isRung_iff, exists_eq_left]

lemma forall_isRung_iff {table : String} {k : ℕ} {p : String → Prop} :
    (∀ name, IsRung table k name → p name) ↔ p (rung table k) := by
  simp only [isRung_iff, forall_eq]

/-- After the pair come the numbers, those of 31 bits as they are counted. -/
lemma rung_add_one {table : String} {n : ℕ} (hpos : 1 ≤ n) (hn : n < 2 ^ 31) :
    rung table (n + 1) = numberedAlias (aliasStem table) (Int32.ofNat n) := by
  obtain ⟨n, rfl⟩ := Nat.exists_eq_add_of_le' hpos
  exact (numberedAlias_ofNat (aliasStem table) hn).symm

/-- The names are different, but for the pair, which may be the letter or one with a number. -/
lemma rung_injOn (table : String) : Set.InjOn (rung table) {k | k ≠ 1} := by
  have hne : ∀ n : ℕ, aliasStem table ≠ aliasStem table ++ (n + 1).repr := by
    intro n heq
    have hnil : (n + 1).repr.toList = [] := by simpa using congrArg String.toList heq
    simp at hnil
  intro i hi j hj heq
  obtain _ | _ | i := i <;> obtain _ | _ | j := j
  · rfl
  · exact absurd rfl hj
  · exact absurd heq (hne j)
  · exact absurd rfl hi
  · exact absurd rfl hi
  · exact absurd rfl hi
  · exact absurd heq.symm (hne i)
  · exact absurd rfl hj
  · exact congrArg (· + 1) (natRepr_injective ((String.append_right_inj _).mp heq))

section Taken

variable {overflow : Overflow} {table : String} {taken : List String} {k : ℕ}

/-- As far down as all names on the ladder are taken, they are at most one more than there are
different names taken. -/
lemma le_card_of_taken (h : ∀ j < k, rung table j ∈ taken) : k ≤ taken.toFinset.card + 1 := by
  have hsubset : ((Finset.range k).erase 1).image (rung table) ⊆ taken.toFinset := fun a ha => by
    obtain ⟨j, hj, rfl⟩ := Finset.mem_image.mp ha
    exact List.mem_toFinset.mpr (h j (Finset.mem_range.mp (Finset.mem_of_mem_erase hj)))
  have hinjective : Set.InjOn (rung table) ((Finset.range k).erase 1) :=
    (rung_injOn table).mono fun j hj => Finset.ne_of_mem_erase hj
  have hle := Finset.card_le_card hsubset
  have herase : (Finset.range k).card - 1 ≤ ((Finset.range k).erase 1).card :=
    Finset.pred_card_le_card_erase
  rw [Finset.card_image_of_injOn hinjective] at hle
  rw [Finset.card_range] at herase
  omega

/-- With fewer than 2^31 names taken, one on the ladder is free. -/
lemma hasFreeRung_of_card_lt (h : taken.toFinset.card < 2 ^ 31) : HasFreeRung table taken := by
  rw [hasFreeRung_iff]
  by_contra hnone
  simp only [not_exists, not_and, not_not] at hnone
  have hle : 2 ^ 31 + 1 ≤ taken.toFinset.card + 1 :=
    le_card_of_taken fun j hj => hnone j (Nat.le_of_lt_succ hj)
  omega

/-! ### The alias of a table -/

/-- Where its first letter and its first two characters are taken, a table gets a number. -/
lemma freeAlias?_of_taken (htable : table ≠ "") (hstem : aliasStem table ∈ taken)
    (hpair : aliasPair table ∈ taken) :
    freeAlias? overflow table taken =
      (freeNumber? overflow (aliasStem table) taken).map (numberedAlias (aliasStem table)) := by
  rw [freeAlias?, if_neg (by simpa using htable), if_neg (by simpa using hstem),
    if_neg (by simpa using hpair)]

/-- The first free name on the ladder is the alias of a table, if its number has 31 bits. -/
lemma freeAlias?_of_free (htable : table ≠ "") (hk : k ≤ 2 ^ 31) (hfree : rung table k ∉ taken)
    (hbefore : ∀ j < k, rung table j ∈ taken) :
    freeAlias? overflow table taken = some (rung table k) := by
  obtain _ | _ | n := k
  · rw [freeAlias?, if_neg (by simpa using htable)]
    exact if_pos (by simpa [rung] using hfree)
  · have hstem : aliasStem table ∈ taken := hbefore 0 one_pos
    rw [freeAlias?, if_neg (by simpa using htable), if_neg (by simpa using hstem)]
    exact if_pos (by simpa [rung] using hfree)
  · have hstops : freeNumber? .stops (aliasStem table) taken = some (Int32.ofNat (n + 1)) := by
      refine freeNumber?_eq_some_iff.mpr ⟨n + 1, by omega, ?_, rfl, ?_, fun j h1 hj => ?_⟩
      · rw [Overflow.values_stops]
        omega
      · rwa [← rung_add_one (by omega) (by omega)]
      · rw [← rung_add_one h1 (by omega)]
        exact hbefore (j + 1) (by omega)
    rw [freeAlias?_of_taken htable (hbefore 0 (by omega)) (hbefore 1 (by omega)),
      freeNumber?_of_stops hstops, Option.map_some, rung_add_one (by omega) (by omega)]

lemma exists_first_of_hasFreeRung (h : HasFreeRung table taken) :
    ∃ k ≤ 2 ^ 31, rung table k ∉ taken ∧ ∀ j < k, rung table j ∈ taken := by
  obtain ⟨k, hk, hfree⟩ := hasFreeRung_iff.mp h
  have hexists : ∃ k, rung table k ∉ taken := ⟨k, hfree⟩
  classical
  refine ⟨Nat.find hexists, (Nat.find_min' hexists hfree).trans hk, Nat.find_spec hexists, ?_⟩
  exact fun j hj => not_not.mp (Nat.find_min hexists hj)

/-- With fewer than 2^31 names taken, a table gets an alias. -/
lemma isSome_freeAlias? (overflow : Overflow) (table : String)
    (h : taken.toFinset.card < 2 ^ 31) : (freeAlias? overflow table taken).isSome := by
  rcases eq_or_ne table "" with rfl | htable
  · rfl
  · have hrung : HasFreeRung table taken := hasFreeRung_of_card_lt h
    obtain ⟨k, hk, hfree, hbefore⟩ := exists_first_of_hasFreeRung hrung
    rw [freeAlias?_of_free htable hk hfree hbefore]
    rfl

/-- A counter that is stopped finds no number beyond 31 bits. -/
lemma freeAlias?_stops (htable : table ≠ "") (htaken : ∀ k ≤ 2 ^ 31, rung table k ∈ taken) :
    freeAlias? .stops table taken = none := by
  rw [freeAlias?_of_taken htable (htaken 0 (by omega)) (htaken 1 (by omega)),
    Option.map_eq_none_iff, freeNumber?_eq_none_iff]
  intro i h1 hi
  rw [Overflow.values_stops] at hi
  rw [← rung_add_one h1 (by omega)]
  exact htaken (i + 1) (by omega)

/-- One that goes on from its least value finds names that are on no ladder. -/
lemma ne_rung_of_freeAlias?_wraps (htable : table ≠ "")
    (htaken : ∀ k ≤ 2 ^ 31, rung table k ∈ taken) {name : String}
    (h : freeAlias? .wraps table taken = some name) (k : ℕ) : name ≠ rung table k := by
  rw [freeAlias?_of_taken htable (htaken 0 (by omega)) (htaken 1 (by omega))] at h
  obtain ⟨n, hn, rfl⟩ := Option.map_eq_some_iff.mp h
  obtain ⟨-, -, -, -, hfree, -⟩ := freeNumber?_eq_some_iff.mp hn
  intro heq
  rcases le_or_gt k (2 ^ 31) with hk | hk
  · exact hfree (heq ▸ htaken k hk)
  · obtain ⟨i, rfl⟩ := Nat.exists_eq_add_of_le' (show 2 ≤ k by omega)
    have hvalue : n.toInt = (i + 1 : ℕ) := numberedAlias_eq_iff.mp heq
    have hlt := n.toInt_lt
    omega

/-- And it goes on for ever only where all numbers are taken. -/
lemma freeAlias?_wraps_eq_none_iff (htable : table ≠ "")
    (htaken : ∀ k ≤ 2 ^ 31, rung table k ∈ taken) :
    freeAlias? .wraps table taken = none ↔ ∀ n, numberedAlias (aliasStem table) n ∈ taken := by
  rw [freeAlias?_of_taken htable (htaken 0 (by omega)) (htaken 1 (by omega)),
    Option.map_eq_none_iff, freeNumber?_eq_none_iff]
  constructor
  · intro h n
    obtain ⟨i, h1, hi, rfl⟩ := Overflow.exists_ofNat_eq n
    exact h i h1 hi
  · exact fun h i _ _ => h (Int32.ofNat i)

end Taken

/-- **The alias of a table is the first free name on its ladder, as far as numbers of 31 bits go.**
Each place of the ladder has one name. With fewer than 2^31 names taken, one of those is free whose
number has 31 bits; and wherever one is, the alias of a table with a name is the first, and no more
numbers are tried for it than there are different names taken. Where none is, there is no alias if
the counter is stopped; if it goes on from its least value, the alias is on no place of the ladder,
and there is none only if all numbers are taken. -/
theorem freeAlias?_isFirstFree {table : String} (h : table ≠ "") (overflow : Overflow)
    (taken : List String) :
    (∀ k, ∃! name, IsRung table k name) ∧
    (taken.toFinset.card < 2 ^ 31 → HasFreeRung table taken) ∧
    (HasFreeRung table taken →
      ∃ k ≤ taken.toFinset.card + 1, ∃ name, freeAlias? overflow table taken = some name ∧
        IsRung table k name ∧ name ∉ taken ∧
        ∀ j < k, ∀ other, IsRung table j other → other ∈ taken) ∧
    (¬ HasFreeRung table taken →
      freeAlias? .stops table taken = none ∧
      (∀ name ∈ freeAlias? .wraps table taken, ∀ k, ¬ IsRung table k name) ∧
      (freeAlias? .wraps table taken = none ↔
        ∀ stem, IsRung table 0 stem → ∀ n, numberedAlias stem n ∈ taken)) := by
  refine ⟨fun k => ?_, hasFreeRung_of_card_lt, fun hfree => ?_, fun hnone => ?_⟩
  · simp only [isRung_iff, existsUnique_eq]
  · obtain ⟨k, hk, hfree, hbefore⟩ := exists_first_of_hasFreeRung hfree
    refine ⟨k, le_card_of_taken hbefore, rung table k, freeAlias?_of_free h hk hfree hbefore,
      isRung_iff.mpr rfl, hfree, fun j hj => forall_isRung_iff.mpr (hbefore j hj)⟩
  · have htaken : ∀ k ≤ 2 ^ 31, rung table k ∈ taken := by
      simpa only [hasFreeRung_iff, not_exists, not_and, not_not] using hnone
    refine ⟨freeAlias?_stops h htaken, fun name hname k hrung => ?_, ?_⟩
    · exact ne_rung_of_freeAlias?_wraps h htaken hname k (isRung_iff.mp hrung)
    · rw [freeAlias?_wraps_eq_none_iff h htaken, forall_isRung_iff]
      rfl

/-- A letter in capitals after another character, and a number that is taken twice. -/
theorem freeAlias?_isFirstFree_numbered :
    let taken := ["ö", "_ö", "ö1", "ö1", "ö3"]
    "_Öl" ≠ "" ∧ taken.toFinset.card < 2 ^ 31 ∧ freeAlias? .stops "_Öl" taken = some "ö2" ∧
      ∃ k, IsRung "_Öl" k "ö2" ∧ ∀ j < k, ∀ name, IsRung "_Öl" j name → name ∈ taken := by
  intro taken
  have hname : "_Öl" ≠ "" := by decide
  have hcard : taken.toFinset.card < 2 ^ 31 := by decide
  have halias : freeAlias? .stops "_Öl" taken = some "ö2" := by decide +kernel
  obtain ⟨-, hfew, hfirst, -⟩ := freeAlias?_isFirstFree hname .stops taken
  obtain ⟨k, -, name, hfound, hrung, -, hbefore⟩ := hfirst (hfew hcard)
  obtain rfl : "ö2" = name := Option.some.inj (halias.symm.trans hfound)
  exact ⟨hname, hcard, halias, k, hrung, hbefore⟩

/-- **The numbers come to an end.** Where the letter, the pair and all numbers of 31 bits are taken,
a counter that is stopped finds no alias, and one that goes on from its least value finds one with a
sign, though the ladder goes on with a name that is free. -/
theorem freeAlias?_overflow :
    let taken := "p" :: "pr" :: (List.range' 1 (2 ^ 31 - 1)).map fun n => "p" ++ toString n
    freeAlias? .stops "Product" taken = none ∧
      freeAlias? .wraps "Product" taken = some "p-2147483648" ∧
      IsRung "Product" (2 ^ 31 + 1) "p2147483648" ∧ "p2147483648" ∉ taken ∧
      ∀ j < 2 ^ 31 + 1, ∀ name, IsRung "Product" j name → name ∈ taken := by
  intro taken
  have hstem : aliasStem "Product" = "p" := by decide +kernel
  have hpair : aliasPair "Product" = "pr" := by decide +kernel
  have hmem : ∀ name, name ∈ taken ↔
      name = "p" ∨ name = "pr" ∨ ∃ n, (1 ≤ n ∧ n < 2 ^ 31) ∧ "p" ++ n.repr = name := by
    intro name
    rw [List.mem_cons, List.mem_cons, List.mem_map]
    simp only [List.mem_range'_1]
    rfl
  clear_value taken
  have htaken : ∀ k ≤ 2 ^ 31, rung "Product" k ∈ taken := by
    intro k hk
    rw [hmem]
    obtain _ | _ | n := k
    · exact .inl hstem
    · exact .inr (.inl hpair)
    · exact .inr (.inr ⟨n + 1, by omega, by rw [rung, hstem]⟩)
  -- of all names that are the letter and a number, those are taken whose number has 31 bits
  have hfree : ∀ a : ℤ, ¬ (1 ≤ a ∧ a < 2 ^ 31) → "p" ++ a.repr ≠ "p" → "p" ++ a.repr ≠ "pr" →
      "p" ++ a.repr ∉ taken := by
    intro a ha hletter hletters hname
    rcases (hmem _).mp hname with hname | hname | ⟨n, hn, hname⟩
    · exact hletter hname
    · exact hletters hname
    · have hvalue : a = n := repr_eq_repr_iff.mp ((String.append_right_inj "p").mp hname.symm)
      omega
  have hsign : freeNumber? .wraps "p" taken = some (Int32.ofNat (2 ^ 31)) := by
    refine freeNumber?_eq_some_iff.mpr ⟨2 ^ 31, by decide, by decide, rfl, ?_, fun j h1 hj => ?_⟩
    · exact hfree (-2147483648) (by decide) (by decide) (by decide)
    · rw [← hstem, ← rung_add_one h1 hj]
      exact htaken (j + 1) hj
  refine ⟨freeAlias?_stops (by decide) htaken, ?_, isRung_iff.mpr ?_,
    hfree 2147483648 (by decide) (by decide) (by decide), fun j hj => forall_isRung_iff.mpr ?_⟩
  · rw [freeAlias?_of_taken (by decide) (htaken 0 (by omega)) (htaken 1 (by omega)), hstem, hsign]
    rfl
  · show "p2147483648" = aliasStem "Product" ++ Nat.repr 2147483648
    rw [hstem]
    rfl
  · exact htaken j (Nat.le_of_lt_succ hj)

end SqlCompletion
