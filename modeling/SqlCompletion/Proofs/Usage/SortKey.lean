import Mathlib.Data.Nat.Log
import SqlCompletion.Proofs.Text.Utf8
import SqlCompletion.Usage.SortKey

/-!
What the editor sees of the sort keys: it compares them as texts, byte by byte.

* `useBoost_eq_capped`: the addition behind the boost may be cut off at the greatest count;
* `basePriority_le`, `priority_lt`: use moves a priority by at most 9 steps, so that the categories
  whose ranks lie further apart never meet;
* `compare_bytesOf_twoDigits`: two digits are compared as the numbers they stand for;
* `sortKey_order`: the keys stand in the order of priority and then of the label.
-/

namespace SqlCompletion

open Text

/-! ### Priorities -/

lemma useBoost_le (count : UInt64) : useBoost count ≤ 9 :=
  min_le_right _ _

lemma useBoost_mono {count count' : UInt64} (h : count ≤ count') :
    useBoost count ≤ useBoost count' := by
  have hlog : (count.toNat + 1).log2 ≤ (count'.toNat + 1).log2 := by
    rw [Nat.log2_eq_log_two, Nat.log2_eq_log_two]
    exact Nat.log_mono_right (Nat.succ_le_succ (UInt64.le_iff_toNat_le.mp h))
  exact min_le_min_right 9 hlog

/-- At the greatest count one more may as well be none more: the boost is 9 there anyway. -/
lemma useBoost_eq_capped (count : UInt64) :
    useBoost count = min (min (count.toNat + 1) (2 ^ 64 - 1)).log2 9 := by
  rcases Nat.lt_or_ge (count.toNat + 1) (2 ^ 64) with hlt | hge
  · rw [useBoost, min_eq_left (Nat.le_sub_one_of_lt hlt)]
  · have hcount : count.toNat + 1 = 2 ^ 64 := le_antisymm count.toNat_lt hge
    rw [useBoost, hcount]
    decide +kernel

section Priority

variable (category : Category) (count : UInt64)

lemma basePriority_bounds : 10 ≤ category.basePriority ∧ category.basePriority ≤ 50 := by
  cases category <;> decide

lemma one_le_priority : 1 ≤ priority category count :=
  le_max_right _ _

/-- Use never lowers a suggestion. -/
lemma priority_le_basePriority : priority category count ≤ category.basePriority := by
  have hbase := (basePriority_bounds category).1
  rw [priority]
  omega

/-- Use raises a suggestion by at most 9 steps. -/
lemma basePriority_le : category.basePriority ≤ priority category count + 9 := by
  have hboost := useBoost_le count
  rw [priority]
  omega

variable {category count}

lemma priority_anti {count' : UInt64} (h : count ≤ count') :
    priority category count' ≤ priority category count := by
  have hboost := useBoost_mono h
  rw [priority, priority]
  omega

/-- No use brings together categories whose ranks lie more than 9 steps apart. -/
lemma priority_lt {category' : Category} {count' : UInt64}
    (h : category.basePriority + 9 < category'.basePriority) :
    priority category count < priority category' count' := by
  have hle := priority_le_basePriority category count
  have hle' := basePriority_le category' count'
  omega

end Priority

/-! ### Keys -/

lemma compare_digitChar {m n : ℕ} (hm : m < 10) (hn : n < 10) :
    compare (Nat.digitChar m) (Nat.digitChar n) = compare m n := by
  have hall : ∀ m < 10, ∀ n < 10, compare (Nat.digitChar m) (Nat.digitChar n) = compare m n := by
    decide
  exact hall m hm n hn

/-- Numbers are compared by their tens and then by what is left. -/
lemma compare_div_mod (m n : ℕ) :
    (compare (m / 10) (n / 10)).then (compare (m % 10) (n % 10)) = compare m n := by
  have hlt : ∀ {m n : ℕ}, m < n →
      (compare (m / 10) (n / 10)).then (compare (m % 10) (n % 10)) = .lt := fun {m n} h => by
    rw [Ordering.then_eq_lt, Nat.compare_eq_lt, Nat.compare_eq_eq, Nat.compare_eq_lt]
    omega
  rcases Nat.lt_trichotomy m n with h | rfl | h
  · rw [hlt h, Nat.compare_eq_lt.mpr h]
  · simp
  · rw [← Nat.compare_swap (n / 10), ← Nat.compare_swap (n % 10), ← Ordering.swap_then, hlt h,
      Nat.compare_eq_gt.mpr h]
    rfl

/-- Texts that begin with two digits are compared by the numbers these stand for, and then by what
follows. -/
lemma compare_bytesOf_twoDigits {m n : ℕ} (hm : m < 100) (hn : n < 100) (rest rest' : List Char) :
    compare (bytesOf (twoDigits m ++ rest)) (bytesOf (twoDigits n ++ rest')) =
      (compare m n).then (compare (bytesOf rest) (bytesOf rest')) := by
  rw [twoDigits, twoDigits, List.cons_append, List.cons_append, List.cons_append, List.cons_append,
    List.nil_append, List.nil_append, compare_bytesOf_cons, compare_bytesOf_cons,
    ← Ordering.then_assoc, compare_digitChar (by omega) (by omega),
    compare_digitChar (by omega) (by omega), compare_div_mod]

/-- Keys are compared by their priorities, and those of one priority by their labels. -/
lemma compareBytes_sortKey (label label' : String) (category category' : Category)
    (count count' : UInt64) :
    compareBytes (sortKey label category count) (sortKey label' category' count') =
      (compare (priority category count) (priority category' count')).then
        (compareBytes (lower label) (lower label')) := by
  have hlt : ∀ c n, priority c n < 100 := fun c n => by
    have hle := priority_le_basePriority c n
    have hbase := (basePriority_bounds c).2
    omega
  rw [compareBytes_eq, sortKey, sortKey, String.toList_ofList, String.toList_ofList,
    compare_bytesOf_twoDigits (hlt category count) (hlt category' count'), compare_bytesOf_cons,
    compareBytes_eq]
  rfl

/-- A key never grows with the count. -/
lemma sortKey_anti {label : String} {category : Category} {count count' : UInt64}
    (h : count ≤ count') : sortKey label category count' ≤ sortKey label category count := by
  have hle : priority category count' ≤ priority category count := priority_anti h
  rcases hle.eq_or_lt with heq | hlt
  · exact Std.le_of_eq (by rw [sortKey, sortKey, heq])
  · rw [← isLE_compareBytes_iff, compareBytes_sortKey, Nat.compare_eq_lt.mpr hlt]
    rfl

/-- **The order of sort keys.** Whatever the labels, categories and counts: the keys compare as
texts, byte by byte, as the pairs of priority and label in small letters do. Priorities lie between
1 and 50 and never grow with the count, and whatever is used how often, every column comes before
every table, every table before every function, every function before every keyword and every
keyword before every operator. -/
theorem sortKey_order (label label' : String) (category category' : Category)
    (count count' : UInt64) :
    compareBytes (sortKey label category count) (sortKey label' category' count') =
        (compare (priority category count) (priority category' count')).then
          (compareBytes (lower label) (lower label')) ∧
      (1 ≤ priority category count ∧ priority category count ≤ 50) ∧
      (count ≤ count' → priority category count' ≤ priority category count) ∧
      [Category.column, .table, .function, .keyword, .operator].Pairwise fun earlier later =>
        compareBytes (sortKey label earlier count) (sortKey label' later count') = .lt := by
  have hle := priority_le_basePriority category count
  have hbase := (basePriority_bounds category).2
  have hapart : [Category.column, .table, .function, .keyword, .operator].Pairwise
      fun earlier later => earlier.basePriority + 9 < later.basePriority := by decide
  refine ⟨compareBytes_sortKey .., ⟨one_le_priority .., hle.trans hbase⟩, priority_anti, ?_⟩
  refine hapart.imp fun {earlier later} h => ?_
  rw [compareBytes_sortKey, Nat.compare_eq_lt.mpr (priority_lt h)]
  rfl

/-- A label that is used as often as can be counted comes before one that is not used, though it
goes on where this one ends. -/
theorem sortKey_order_greatest :
    let count : UInt64 := 18446744073709551615
    0 ≤ count ∧ priority .column count ≤ priority .column 0 ∧
      compareBytes (sortKey "z" .column 0) (sortKey "Z!" .column count) = .gt := by
  intro count
  have hle : 0 ≤ count := by decide
  obtain ⟨hcompare, -, hpriority, -⟩ := sortKey_order "z" "Z!" .column .column 0 count
  refine ⟨hle, hpriority hle, ?_⟩
  rw [hcompare]
  decide +kernel

end SqlCompletion
