import SqlCompletion.Proofs.Usage.SortKey
import SqlCompletion.Proofs.Usage.Tracker

/-!
Suggestions in the order that use gives them.

* `filter_mergeSort`: a stable sort treats the elements that are kept as if the others had never
  been there;
* `Tracker.rank_filter`, `Tracker.filter_rank_eq`: so leaving suggestions out does not reorder the
  others, and those of one sort key stand in the order in which they came;
* `countP_lt_le_findIdx`, `findIdx_le_countP_le`: the place of an element is bounded by how many
  elements have a smaller key, and by how many have no greater one;
* `Tracker.rank_used`: nothing is removed, and a use moves its suggestion to the front if anywhere.
-/

namespace SqlCompletion

open Text

/-! ### Stable sorting -/

section StableSort

variable {α : Type} {le : α → α → Bool}

/-- A list is divided in only one way into elements without a property and elements with it. -/
lemma eq_and_eq_of_append_eq_append {p : α → Bool} {xs ys xs' ys' : List α}
    (h : xs ++ ys = xs' ++ ys') (hxs : ∀ x ∈ xs, p x = false) (hys : ∀ y ∈ ys, p y = true)
    (hxs' : ∀ x ∈ xs', p x = false) (hys' : ∀ y ∈ ys', p y = true) : xs = xs' ∧ ys = ys' := by
  have hfront : ∀ {xs ys : List α}, (∀ x ∈ xs, p x = false) → (∀ y ∈ ys, p y = true) →
      (xs ++ ys).filter (fun x => !p x) = xs := fun {xs ys} hxs hys => by
    have hnone : ys.filter (fun x => !p x) = [] := by simpa using hys
    rw [List.filter_append, hnone, List.append_nil, List.filter_eq_self]
    simpa using hxs
  have heq : xs = xs' := by rw [← hfront hxs hys, h, hfront hxs' hys']
  subst heq
  exact ⟨rfl, List.append_cancel_left h⟩

variable (trans : ∀ a b c, le a b = true → le b c = true → le a c = true)
  (total : ∀ a b, (le a b || le b a) = true)

include trans total

/-- One more element is put where the first element stands that it may come before. -/
lemma exists_mergeSort_cons (a : α) (xs : List α) :
    ∃ before after, (a :: xs).mergeSort le = before ++ a :: after ∧
      xs.mergeSort le = before ++ after ∧ (∀ b ∈ before, le a b = false) ∧
        ∀ b ∈ after, le a b = true := by
  obtain ⟨before, after, hcons, hrest, hbefore⟩ := List.mergeSort_cons trans total a xs
  have hsorted := List.pairwise_mergeSort trans total (a :: xs)
  rw [hcons, List.pairwise_append, List.pairwise_cons] at hsorted
  exact ⟨before, after, hcons, hrest, by simpa using hbefore, hsorted.2.1.1⟩

/-- It makes no difference whether elements are left out before or after a stable sort. -/
lemma filter_mergeSort (p : α → Bool) (xs : List α) :
    (xs.filter p).mergeSort le = (xs.mergeSort le).filter p := by
  induction xs with
  | nil => simp
  | cons a xs ih =>
      obtain ⟨before, after, hcons, hrest, hbefore, hafter⟩ :=
        exists_mergeSort_cons trans total a xs
      rw [hrest, List.filter_append] at ih
      rw [hcons, List.filter_append]
      by_cases h : p a = true
      · obtain ⟨before', after', hcons', hrest', hbefore', hafter'⟩ :=
          exists_mergeSort_cons trans total a (xs.filter p)
        obtain ⟨hfront, hback⟩ := eq_and_eq_of_append_eq_append (hrest'.symm.trans ih) hbefore'
          hafter' (fun b hb => hbefore b (List.mem_filter.mp hb).1)
          fun b hb => hafter b (List.mem_filter.mp hb).1
        rw [List.filter_cons_of_pos h, List.filter_cons_of_pos h, hcons', hfront, hback]
      · rw [List.filter_cons_of_neg h, List.filter_cons_of_neg h, ih]

end StableSort

/-! ### Ranks -/

namespace Ranked

/-- The order of ranked suggestions. -/
def noLater (r s : Ranked) : Bool :=
  r.sortText ≤ s.sortText

lemma noLater_trans (r s t : Ranked) (h : r.noLater s = true) (h' : s.noLater t = true) :
    r.noLater t = true :=
  decide_eq_true (String.le_trans (of_decide_eq_true h) (of_decide_eq_true h'))

lemma noLater_total (r s : Ranked) : (r.noLater s || s.noLater r) = true := by
  simpa [noLater] using String.le_total r.sortText s.sortText

end Ranked

namespace Tracker

variable {σ : Type} (tracker : Tracker σ) (all : List Suggestion)

/-- A suggestion with its sort key. -/
def ranked (s : Suggestion) : Ranked :=
  ⟨tracker.sortKeyOf s.label s.category, s⟩

lemma map_suggestion_ranked : (all.map tracker.ranked).map Ranked.suggestion = all := by
  rw [List.map_map]
  exact List.map_id _

lemma rank_eq : tracker.rank all = (all.map tracker.ranked).mergeSort Ranked.noLater := rfl

lemma perm_rank : (tracker.rank all).Perm (all.map tracker.ranked) :=
  List.mergeSort_perm _ _

lemma pairwise_rank : (tracker.rank all).Pairwise fun r s => r.sortText ≤ s.sortText :=
  (List.pairwise_mergeSort Ranked.noLater_trans Ranked.noLater_total _).imp of_decide_eq_true

variable {tracker all}

lemma eq_ranked_of_mem_rank {r : Ranked} (h : r ∈ tracker.rank all) :
    r = tracker.ranked r.suggestion := by
  obtain ⟨s, -, rfl⟩ := List.mem_map.mp ((tracker.perm_rank all).mem_iff.mp h)
  rfl

/-- The ranks depend on the sort keys of the suggestions alone. -/
lemma rank_congr {tracker' : Tracker σ}
    (h : ∀ s ∈ all, tracker'.sortKeyOf s.label s.category = tracker.sortKeyOf s.label s.category) :
    tracker'.rank all = tracker.rank all := by
  have hranked : all.map tracker'.ranked = all.map tracker.ranked :=
    List.map_congr_left fun s hs => congrArg (Ranked.mk · s) (h s hs)
  rw [rank_eq, rank_eq, hranked]

/-- Suggestions that come in the order of their sort keys stay as they are. -/
lemma rank_of_pairwise
    (h : (all.map fun s => tracker.sortKeyOf s.label s.category).Pairwise (· ≤ ·)) :
    tracker.rank all = all.map tracker.ranked := by
  rw [rank_eq, List.mergeSort_of_pairwise]
  rw [List.pairwise_map] at h ⊢
  exact h.imp decide_eq_true

/-- Where no two suggestions have the same sort key there is only one order. -/
lemma rank_of_perm {sorted : List Suggestion} (hperm : sorted.Perm all)
    (h : (sorted.map fun s => tracker.sortKeyOf s.label s.category).Pairwise (· < ·)) :
    tracker.rank all = sorted.map tracker.ranked := by
  have hranks : (tracker.rank all).Perm (sorted.map tracker.ranked) :=
    (tracker.perm_rank all).trans (hperm.symm.map _)
  have hsorted : (sorted.map tracker.ranked).Pairwise fun r s => r.sortText ≤ s.sortText := by
    rw [List.pairwise_map] at h ⊢
    exact h.imp Std.le_of_lt
  refine List.Perm.eq_of_pairwise (fun r r' hr hr' hle hle' => ?_) (tracker.pairwise_rank all)
    hsorted hranks
  obtain ⟨s, hs, rfl⟩ := List.mem_map.mp (hranks.mem_iff.mp hr)
  obtain ⟨s', hs', rfl⟩ := List.mem_map.mp hr'
  exact congrArg _ (List.inj_on_of_nodup_map (h.imp String.ne_of_lt) hs hs'
    (String.le_antisymm hle hle'))

variable (tracker all)

/-- Leaving suggestions out does not reorder the others. -/
lemma rank_filter (p : Suggestion → Bool) :
    tracker.rank (all.filter p) = (tracker.rank all).filter fun r => p r.suggestion := by
  rw [rank_eq, rank_eq, ← filter_mergeSort Ranked.noLater_trans Ranked.noLater_total,
    List.filter_map]
  rfl

/-- The suggestions of one sort key stand in the order in which they came. -/
lemma filter_rank_eq (text : String) :
    ((tracker.rank all).filter fun r => r.sortText = text).map Ranked.suggestion =
      all.filter fun s => tracker.sortKeyOf s.label s.category = text := by
  have hkept : ((tracker.rank all).filter fun r => r.sortText = text) =
      tracker.rank (all.filter fun s => tracker.sortKeyOf s.label s.category = text) := by
    rw [rank_filter]
    refine List.filter_congr fun r hr => ?_
    rw [eq_ranked_of_mem_rank hr]
    rfl
  have hties : ((all.filter fun s => tracker.sortKeyOf s.label s.category = text).map
      fun s => tracker.sortKeyOf s.label s.category).Pairwise (· ≤ ·) := by
    refine List.pairwise_map.mpr (List.pairwise_of_forall_mem_list fun s hs s' hs' => ?_)
    have htext := of_decide_eq_true (List.mem_filter.mp hs).2
    have htext' := of_decide_eq_true (List.mem_filter.mp hs').2
    exact Std.le_of_eq (htext.trans htext'.symm)
  rw [hkept, rank_of_pairwise hties, map_suggestion_ranked]

end Tracker

/-! ### Places -/

section Places

variable {rs : List Ranked} {q : Ranked → Bool} {text : String}

/-- Whatever has a smaller key than all that is sought stands before it. -/
lemma countP_lt_le_findIdx (hsorted : rs.Pairwise fun r s => r.sortText ≤ s.sortText)
    (h : ∀ r ∈ rs, q r = true → text ≤ r.sortText) :
    rs.countP (fun r => r.sortText < text) ≤ rs.findIdx q := by
  induction rs with
  | nil => simp
  | cons r rs ih =>
      obtain ⟨hle, hsorted⟩ := List.pairwise_cons.mp hsorted
      rw [List.findIdx_cons]
      cases hr : q r with
      | true =>
          have hfirst := h r (List.mem_cons_self ..) hr
          have hall : ∀ s ∈ r :: rs, ¬ s.sortText < text := by
            rintro s hs
            rw [String.not_lt]
            rcases List.mem_cons.mp hs with rfl | hs
            · exact hfirst
            · exact String.le_trans hfirst (hle s hs)
          simpa using hall
      | false =>
          have hrest := ih hsorted fun s hs => h s (List.mem_cons_of_mem r hs)
          rw [List.countP_cons]
          simp only [cond_false]
          split_ifs <;> omega

/-- What stands before all that is sought has no greater key than any of it. -/
lemma findIdx_le_countP_le (hsorted : rs.Pairwise fun r s => r.sortText ≤ s.sortText)
    (h : ∃ r ∈ rs, q r = true ∧ r.sortText ≤ text) :
    rs.findIdx q ≤ (rs.filter fun r => !q r).countP fun r => r.sortText ≤ text := by
  induction rs with
  | nil => simp at h
  | cons r rs ih =>
      obtain ⟨hle, hsorted⟩ := List.pairwise_cons.mp hsorted
      rw [List.findIdx_cons]
      cases hr : q r with
      | true => exact Nat.zero_le _
      | false =>
          obtain ⟨s, hs, hsought, hstext⟩ := h
          have hmem : s ∈ rs := by
            rcases List.mem_cons.mp hs with rfl | hmem
            · rw [hr] at hsought
              cases hsought
            · exact hmem
          have hrtext : r.sortText ≤ text := String.le_trans (hle s hmem) hstext
          have hrest := ih hsorted ⟨s, hmem, hsought, hstext⟩
          rw [List.filter_cons_of_pos (by simp [hr]),
            List.countP_cons_of_pos (by simpa using hrtext)]
          exact Nat.succ_le_succ hrest

end Places

/-! ### Use -/

namespace Tracker

section Used

variable {σ : Type} (tracker : Tracker σ) (all : List Suggestion) (key : String)
  (category : Category) (now : Int64)

/-- The tracker after one more use of a key. -/
def used : Tracker σ :=
  { tracker with usage := tracker.usage.record key category now }

variable {tracker key}

/-- Suggestions that are counted together are sorted together. -/
lemma sortKeyOf_of_key_eq {s s' : Suggestion} (h : s.key = s'.key) :
    tracker.sortKeyOf s.label s.category = tracker.sortKeyOf s'.label s'.category := by
  rw [Category.label_eq_of_key_eq h, Category.category_eq_of_key_eq h]

lemma sortKeyOf_used_of_ne {s : Suggestion} (h : s.key ≠ key) :
    (tracker.used key category now).sortKeyOf s.label s.category =
      tracker.sortKeyOf s.label s.category := by
  have hcount : (tracker.usage.record key category now).count s.key =
      tracker.usage.count s.key := by
    rw [UsageRecord.count_record, if_neg h]
  exact congrArg (sortKey s.label s.category) hcount

/-- The sort key of a suggestion does not grow with its use. -/
lemma sortKeyOf_used_le (s : Suggestion) (h : (tracker.usage.count s.key).toNat + 1 < 2 ^ 64) :
    (tracker.used s.key category now).sortKeyOf s.label s.category ≤
      tracker.sortKeyOf s.label s.category := by
  have hcount : (tracker.used s.key category now).usageCount s.label s.category =
      tracker.usage.count s.key + 1 := (UsageRecord.count_record ..).trans (if_pos rfl)
  have hle : tracker.usage.count s.key ≤ tracker.usage.count s.key + 1 := by
    rw [UInt64.le_iff_toNat_le, UInt64.toNat_add, UInt64.toNat_one, Nat.mod_eq_of_lt h]
    exact Nat.le_succ _
  rw [sortKeyOf, sortKeyOf, hcount]
  exact sortKey_anti hle

variable (tracker key)

/-- Use of a suggestion does not reorder the others. -/
lemma filter_rank_used :
    ((tracker.used key category now).rank all).filter (fun r => r.suggestion.key != key) =
      (tracker.rank all).filter fun r => r.suggestion.key != key := by
  rw [← rank_filter _ _ fun s => s.key != key, ← rank_filter _ _ fun s => s.key != key]
  refine rank_congr fun s hs => sortKeyOf_used_of_ne category now ?_
  simpa using (List.mem_filter.mp hs).2

/-- A use does not move its suggestion back. Where the sort key stays the same, so does the order;
where it gets smaller, what stands before the suggestion afterwards has no greater key than it has
now, thus a smaller one than it had, and stood before it already. -/
lemma findIdx_rank_used (h : (tracker.usage.count key).toNat + 1 < 2 ^ 64) :
    ((tracker.used key category now).rank all).findIdx (fun r => r.suggestion.key == key) ≤
      (tracker.rank all).findIdx fun r => r.suggestion.key == key := by
  by_cases hsame : ∀ s ∈ all, (tracker.used key category now).sortKeyOf s.label s.category =
      tracker.sortKeyOf s.label s.category
  · rw [rank_congr hsame]
  · push Not at hsame
    obtain ⟨s, hs, hne⟩ := hsame
    obtain rfl : s.key = key := by
      by_contra hkey
      exact hne (sortKeyOf_used_of_ne category now hkey)
    set after := tracker.used s.key category now with hafter
    set old := tracker.sortKeyOf s.label s.category with hold
    set new := after.sortKeyOf s.label s.category with hnew
    have hlt : new < old := by
      rw [← String.not_le]
      exact fun hle => hne (String.le_antisymm (sortKeyOf_used_le category now s h) hle)
    have hmem : after.ranked s ∈ after.rank all :=
      (after.perm_rank all).mem_iff.mpr (List.mem_map_of_mem hs)
    have hkeys : ∀ r ∈ tracker.rank all, (r.suggestion.key == s.key) = true → old ≤ r.sortText := by
      intro r hr hkey
      rw [eq_ranked_of_mem_rank hr, hold, sortKeyOf_of_key_eq (beq_iff_eq.mp hkey).symm]
      exact String.le_refl _
    calc
      (after.rank all).findIdx (fun r => r.suggestion.key == s.key) ≤
          ((after.rank all).filter fun r => r.suggestion.key != s.key).countP
            fun r => r.sortText ≤ new :=
        findIdx_le_countP_le (after.pairwise_rank all)
          ⟨_, hmem, beq_self_eq_true s.key, String.le_refl _⟩
      _ = ((tracker.rank all).filter fun r => r.suggestion.key != s.key).countP
            fun r => r.sortText ≤ new := by rw [hafter, filter_rank_used]
      _ ≤ (tracker.rank all).countP fun r => r.sortText ≤ new :=
        List.filter_sublist.countP_le
      _ ≤ (tracker.rank all).countP fun r => r.sortText < old :=
        List.countP_mono_left fun r _ hr =>
          decide_eq_true (Std.lt_of_le_of_lt (of_decide_eq_true hr) hlt)
      _ ≤ (tracker.rank all).findIdx fun r => r.suggestion.key == s.key :=
        countP_lt_le_findIdx (tracker.pairwise_rank all) hkeys

end Used

variable {σ : Type}

/-- **Use reorders and never removes, and a use never demotes.** Whatever the counts: ranking keeps
every suggestion as often as it came, puts them in the order of the bytes of their sort keys, and
leaves those of one sort key in the order in which they came. After one more use of a key, unless it
has been used as often as can be counted, its suggestion, or the first of them, stands no later than
before, and the others stand as before among themselves. -/
theorem rank_used (tracker : Tracker σ) (all : List Suggestion) :
    ((tracker.rank all).map Ranked.suggestion).Perm all ∧
      (∀ r ∈ tracker.rank all,
        r.sortText = tracker.sortKeyOf r.suggestion.label r.suggestion.category) ∧
      (tracker.rank all).Pairwise (fun r s => (compareBytes r.sortText s.sortText).isLE) ∧
      (∀ text, ((tracker.rank all).filter fun r => r.sortText = text).map Ranked.suggestion =
        all.filter fun s => tracker.sortKeyOf s.label s.category = text) ∧
      ∀ key category now, (tracker.usage.count key).toNat + 1 < 2 ^ 64 →
        ((tracker.used key category now).rank all).findIdx (fun r => r.suggestion.key == key) ≤
            (tracker.rank all).findIdx (fun r => r.suggestion.key == key) ∧
          ((tracker.used key category now).rank all).filter (fun r => r.suggestion.key != key) =
            (tracker.rank all).filter fun r => r.suggestion.key != key := by
  refine ⟨?_, fun r hr => congrArg Ranked.sortText (eq_ranked_of_mem_rank hr), ?_,
    tracker.filter_rank_eq all, fun key category now h => ?_⟩
  · have hperm := (tracker.perm_rank all).map Ranked.suggestion
    rwa [map_suggestion_ranked] at hperm
  · exact (tracker.pairwise_rank all).imp isLE_compareBytes_iff.mpr
  · exact ⟨tracker.findIdx_rank_used all key category now h,
      tracker.filter_rank_used all key category now⟩

/-- Of two columns that differ in case only, the second one comes first when it is used. -/
theorem rank_used_tie :
    let tracker : Tracker MemoryStore := .start {} 1000 0
    let all : List Suggestion := [⟨"Total", .column, none⟩, ⟨"total", .column, none⟩]
    let after := tracker.used "column:total" .column 0
    (tracker.usage.count "column:total").toNat + 1 < 2 ^ 64 ∧
      tracker.rank all = all.map tracker.ranked ∧
      after.rank all = all.reverse.map after.ranked ∧
      (after.rank all).findIdx (fun r => r.suggestion.key == "column:total") ≤
        (tracker.rank all).findIdx (fun r => r.suggestion.key == "column:total") := by
  intro tracker all after
  have hcount : (tracker.usage.count "column:total").toNat + 1 < 2 ^ 64 := by decide +kernel
  exact ⟨hcount, rank_of_pairwise (by decide +kernel),
    rank_of_perm (List.reverse_perm all) (by decide +kernel),
    ((rank_used tracker all).2.2.2.2 "column:total" .column 0 hcount).1⟩

end Tracker

end SqlCompletion
