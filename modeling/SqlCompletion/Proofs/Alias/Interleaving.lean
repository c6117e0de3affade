import Mathlib.Data.List.Sort
import SqlCompletion.Alias.Splice
import SqlCompletion.Proofs.Text.Bytes

/-!
Writing aliases into a text one by one is writing all of them at once.

* `Fragment`, `interleave`: a text with all aliases written into it at once, each at its place in
  the text as it was, by where its parts come from;
* `interleave_congr`: only the insertions at boundaries of the text matter, each place for itself;
* `interleave_append`: before the first place the text is as it was;
* `isBoundary_interleave_iff`: so up to there its boundaries are those that it had;
* `splice_interleave`: one more insertion, at a place no later than all others, is written at once
  with them;
* `foldl_splice`: which makes it the same to write from the last place to the first;
* `allWritten_iff`: no insertion is passed over if all have boundaries as their places;
* `applyInsertions_eq_interleave`: and the order of insertions with different places does not
  matter.
-/

namespace SqlCompletion

open Text

/-! ### All insertions at once -/

/-- A part of a text into which aliases are written: a character that it had, or what an insertion
writes. -/
inductive Fragment
  | kept (c : Char)
  | written (insertion : Insertion)

namespace Fragment

/-- The characters of a part. An alias has a space before it. -/
def text : Fragment → List Char
  | kept c => [c]
  | written insertion => ' ' :: insertion.aliasName.toList

/-- The character that the text had, unless the part is inserted. -/
def kept? : Fragment → Option Char
  | kept c => some c
  | written _ => none

/-- The insertion that wrote the part. -/
def insertion? : Fragment → Option Insertion
  | kept _ => none
  | written insertion => some insertion

end Fragment

/-- What is written at a byte offset. Of several insertions the last comes first. -/
def writtenAt (insertions : List Insertion) (place : ℕ) : List Fragment :=
  (insertions.filter (·.position = place)).reverse.map Fragment.written

/-- A text that begins at a byte offset, with everything written that has its place before, between
or after two characters of it. -/
def interleave (insertions : List Insertion) : ℕ → List Char → List Fragment
  | start, [] => writtenAt insertions start
  | start, c :: cs =>
    writtenAt insertions start ++ .kept c :: interleave insertions (start + c.utf8Size) cs

/-- The text that parts make up. -/
def textOf (fragments : List Fragment) : List Char :=
  fragments.flatMap Fragment.text

@[simp] lemma textOf_cons (fragment : Fragment) (fragments : List Fragment) :
    textOf (fragment :: fragments) = fragment.text ++ textOf fragments := rfl

@[simp] lemma textOf_append (a b : List Fragment) : textOf (a ++ b) = textOf a ++ textOf b := by
  simp [textOf]

@[simp] lemma textOf_map_kept (cs : List Char) : textOf (cs.map .kept) = cs := by
  induction cs with
  | nil => rfl
  | cons c cs ih => rw [List.map_cons, textOf_cons, ih]; rfl

/-- The text without what is inserted. -/
def keptOf (fragments : List Fragment) : List Char :=
  fragments.filterMap Fragment.kept?

@[simp] lemma keptOf_kept (c : Char) (fragments : List Fragment) :
    keptOf (.kept c :: fragments) = c :: keptOf fragments := rfl

@[simp] lemma keptOf_append (a b : List Fragment) : keptOf (a ++ b) = keptOf a ++ keptOf b :=
  List.filterMap_append

@[simp] lemma keptOf_map_written (is : List Insertion) : keptOf (is.map .written) = [] := by
  induction is with
  | nil => rfl
  | cons i is ih => exact ih

/-- What is inserted, in the order in which it stands in the text. -/
def insertionsOf (fragments : List Fragment) : List Insertion :=
  fragments.filterMap Fragment.insertion?

@[simp] lemma insertionsOf_kept (c : Char) (fragments : List Fragment) :
    insertionsOf (.kept c :: fragments) = insertionsOf fragments := rfl

@[simp] lemma insertionsOf_append (a b : List Fragment) :
    insertionsOf (a ++ b) = insertionsOf a ++ insertionsOf b :=
  List.filterMap_append

@[simp] lemma insertionsOf_map_written (is : List Insertion) :
    insertionsOf (is.map .written) = is := by
  rw [insertionsOf, List.filterMap_map]
  exact List.filterMap_some

section Interleave

variable {insertions other : List Insertion} {start : ℕ} {cs : List Char}

lemma writtenAt_eq_nil {place : ℕ} (h : ∀ i ∈ insertions, i.position ≠ place) :
    writtenAt insertions place = [] := by
  have hnone : insertions.filter (·.position = place) = [] :=
    List.filter_eq_nil_iff.mpr fun i hi => by simpa using h i hi
  rw [writtenAt, hnone]
  rfl

lemma interleave_nil (start : ℕ) (cs : List Char) : interleave [] start cs = cs.map .kept := by
  induction cs generalizing start with
  | nil => rfl
  | cons c cs ih =>
      rw [interleave, ih]
      rfl

/-- Only the insertions at boundaries of the text matter, each place for itself. -/
lemma interleave_congr
    (h : ∀ p, IsBoundary cs p → writtenAt other (start + p) = writtenAt insertions (start + p)) :
    interleave other start cs = interleave insertions start cs := by
  have hstart : writtenAt other start = writtenAt insertions start := h 0 (isBoundary_zero cs)
  induction cs generalizing start with
  | nil => exact hstart
  | cons c cs ih =>
      have hnext : ∀ p, IsBoundary cs p →
          writtenAt other (start + c.utf8Size + p) =
            writtenAt insertions (start + c.utf8Size + p) := by
        intro p hp
        rw [Nat.add_assoc]
        exact h _ (isBoundary_cons_add hp)
      rw [interleave, interleave, hstart, ih hnext (hnext 0 (isBoundary_zero cs))]

/-- Before the first place the text is as it was. -/
lemma interleave_append {before after : List Char}
    (h : ∀ i ∈ insertions, start + byteLength before ≤ i.position) :
    interleave insertions start (before ++ after) =
      before.map .kept ++ interleave insertions (start + byteLength before) after := by
  induction before generalizing start with
  | nil => rfl
  | cons c before ih =>
      have hc := c.utf8Size_pos
      rw [byteLength, ← Nat.add_assoc] at h ⊢
      have hnothing : writtenAt insertions start = [] :=
        writtenAt_eq_nil fun i hi => by have := h i hi; omega
      rw [List.cons_append, interleave, hnothing, ih h]
      rfl

/-- Up to the first place the boundaries are those of the text as it was. -/
lemma isBoundary_interleave_iff {p : ℕ} (h : ∀ i ∈ insertions, start + p ≤ i.position) :
    IsBoundary (textOf (interleave insertions start cs)) p ↔ IsBoundary cs p := by
  constructor
  · intro hp
    induction cs generalizing start p with
    | nil =>
        rcases Nat.eq_zero_or_pos p with rfl | hpos
        · exact isBoundary_zero _
        · rw [interleave, writtenAt_eq_nil fun i hi => by have := h i hi; omega] at hp
          exact hp
    | cons c cs ih =>
        rcases Nat.eq_zero_or_pos p with rfl | hpos
        · exact isBoundary_zero _
        · rw [interleave, writtenAt_eq_nil fun i hi => by have := h i hi; omega] at hp
          obtain ⟨q, rfl, hq⟩ := exists_of_isBoundary_cons hpos hp
          refine isBoundary_cons_add (ih (fun i hi => ?_) hq)
          rw [Nat.add_assoc]
          exact h i hi
  · intro hp
    obtain ⟨before, after, rfl, rfl⟩ := hp.exists_split
    rw [interleave_append h, textOf_append, textOf_map_kept]
    exact isBoundary_append _ _

/-- At its own place an insertion that comes last in the list is written first. -/
lemma interleave_concat_self (i : Insertion) (insertions : List Insertion) (cs : List Char) :
    interleave (insertions ++ [i]) i.position cs =
      .written i :: interleave insertions i.position cs := by
  have hself : writtenAt (insertions ++ [i]) i.position =
      .written i :: writtenAt insertions i.position := by
    simp [writtenAt]
  cases cs with
  | nil => exact hself
  | cons c cs =>
      have hc := c.utf8Size_pos
      have hlater : interleave (insertions ++ [i]) (i.position + c.utf8Size) cs =
          interleave insertions (i.position + c.utf8Size) cs := by
        refine interleave_congr fun p _ => ?_
        have hne : i.position ≠ i.position + c.utf8Size + p := by omega
        simp [writtenAt, hne]
      rw [interleave, interleave, hself, hlater]
      rfl

/-- One more insertion, at a place no later than all others, is written at once with them. It is
passed over where the text as it was has no boundary. -/
lemma splice_interleave {i : Insertion} (h : ∀ j ∈ insertions, i.position ≤ j.position)
    (cs : List Char) :
    splice (textOf (interleave insertions 0 cs)) i =
      textOf (interleave (insertions ++ [i]) 0 cs) := by
  by_cases hplace : IsBoundary cs i.position
  · obtain ⟨before, after, rfl, hbefore⟩ := hplace.exists_split
    have hall : ∀ j ∈ insertions ++ [i], 0 + byteLength before ≤ j.position := by
      intro j hj
      rw [hbefore, Nat.zero_add]
      rcases List.mem_append.mp hj with hj | hj
      · exact h j hj
      · rw [List.mem_singleton.mp hj]
    rw [interleave_append fun j hj => hall j (List.mem_append_left _ hj), interleave_append hall,
      Nat.zero_add, hbefore, interleave_concat_self, textOf_append, textOf_append, textOf_map_kept,
      splice, ← hbefore, splitAt?_append]
    simp [Fragment.text]
  · have hout : ¬ IsBoundary (textOf (interleave insertions 0 cs)) i.position := by
      rwa [isBoundary_interleave_iff (by simpa using h)]
    have hnothing : interleave (insertions ++ [i]) 0 cs = interleave insertions 0 cs := by
      refine interleave_congr fun p hp => ?_
      have hne : i.position ≠ p := fun heq => hplace (heq ▸ hp)
      simp [writtenAt, hne]
    rw [IsBoundary, Bool.not_eq_true, Option.isSome_eq_false_iff, Option.isNone_iff_eq_none] at hout
    rw [splice, hout, hnothing]

/-- To write from the last place to the first is to write all at once. -/
lemma foldl_splice (h : insertions.Pairwise fun i j => j.position ≤ i.position) (cs : List Char) :
    insertions.foldl splice cs = textOf (interleave insertions 0 cs) := by
  induction insertions using List.reverseRecOn with
  | nil =>
      rw [interleave_nil, textOf_map_kept]
      rfl
  | append_singleton insertions i ih =>
      rw [List.pairwise_append] at h
      rw [List.foldl_concat, ih h.1,
        splice_interleave fun j hj => h.2.2 j hj i (List.mem_singleton_self i)]

end Interleave

/-! ### The order of writing -/

lemma isLater_trans (i j k : Insertion) (h : decide (j.position ≤ i.position) = true)
    (h' : decide (k.position ≤ j.position) = true) : decide (k.position ≤ i.position) = true :=
  decide_eq_true ((of_decide_eq_true h').trans (of_decide_eq_true h))

lemma isLater_total (i j : Insertion) :
    (decide (j.position ≤ i.position) || decide (i.position ≤ j.position)) = true := by
  simpa using le_total j.position i.position

/-- The insertions are written from the last place to the first. -/
lemma pairwise_fromLast (insertions : List Insertion) :
    (fromLast insertions).Pairwise fun i j => j.position ≤ i.position :=
  (List.pairwise_mergeSort isLater_trans isLater_total insertions).imp of_decide_eq_true

/-- Those of one place keep their order. -/
lemma filter_fromLast (insertions : List Insertion) (place : ℕ) :
    (fromLast insertions).filter (·.position = place) =
      insertions.filter (·.position = place) := by
  have hself : (insertions.filter (·.position = place)).filter (·.position = place) =
      insertions.filter (·.position = place) :=
    List.filter_eq_self.mpr fun i hi => (List.mem_filter.mp hi).2
  have hties : (insertions.filter (·.position = place)).Pairwise fun i j =>
      decide (j.position ≤ i.position) = true := by
    refine List.pairwise_of_forall_mem_list fun i hi j hj => ?_
    have hi := of_decide_eq_true (List.mem_filter.mp hi).2
    have hj := of_decide_eq_true (List.mem_filter.mp hj).2
    exact decide_eq_true (hj.trans hi.symm).le
  have hsublist := (List.sublist_mergeSort isLater_trans isLater_total hties
    List.filter_sublist).filter (·.position = place)
  rw [hself] at hsublist
  have hperm : (fromLast insertions).Perm insertions := List.mergeSort_perm insertions _
  exact (hsublist.eq_of_length (hperm.filter _).length_eq.symm).symm

lemma toList_applyInsertions (sql : String) (insertions : List Insertion) :
    (applyInsertions sql insertions).toList = textOf (interleave insertions 0 sql.toList) := by
  have hsame : interleave (fromLast insertions) 0 sql.toList =
      interleave insertions 0 sql.toList :=
    interleave_congr fun p _ => by rw [writtenAt, filter_fromLast, writtenAt]
  rw [applyInsertions, String.toList_ofList, foldl_splice (pairwise_fromLast insertions), hsame]

/-- No insertion is passed over: when it is its turn, its place is a boundary of the text as it is
by then. -/
def AllWritten (sql : String) (insertions : List Insertion) : Prop :=
  ∀ done i left, fromLast insertions = done ++ i :: left →
    IsBoundary (done.foldl splice sql.toList) i.position

/-- Whether an insertion is passed over depends on the text as it was. -/
lemma allWritten_iff {sql : String} {insertions : List Insertion} :
    AllWritten sql insertions ↔ ∀ i ∈ insertions, IsBoundary sql.toList i.position := by
  have hturn : ∀ done i left, fromLast insertions = done ++ i :: left →
      (IsBoundary (done.foldl splice sql.toList) i.position ↔
        IsBoundary sql.toList i.position) := by
    intro done i left hsplit
    have hsorted := pairwise_fromLast insertions
    rw [hsplit, List.pairwise_append] at hsorted
    rw [foldl_splice hsorted.1]
    refine isBoundary_interleave_iff fun j hj => ?_
    rw [Nat.zero_add]
    exact hsorted.2.2 j hj i (List.mem_cons_self ..)
  constructor
  · intro h i hi
    obtain ⟨done, left, hsplit⟩ := List.append_of_mem (List.mem_mergeSort.mpr hi)
    exact (hturn done i left hsplit).mp (h done i left hsplit)
  · intro h done i left hsplit
    have hi : i ∈ fromLast insertions := by simp [hsplit]
    exact (hturn done i left hsplit).mpr (h i (List.mem_mergeSort.mp hi))

/-! ### What is written where -/

/-- Parts of a text into which all insertions are written at once. What is not inserted is the text
as it was, each insertion stands at its place in that text, and at every boundary stand all
insertions that have it as their place, the last one first. -/
structure Interleaves (cs : List Char) (insertions : List Insertion) (fragments : List Fragment) :
    Prop where
  kept : keptOf fragments = cs
  place : ∀ before i after, fragments = before ++ .written i :: after →
    byteLength (keptOf before) = i.position
  inserted : ∀ place, (insertionsOf fragments).filter (·.position = place) =
    if IsBoundary cs place then (insertions.filter (·.position = place)).reverse else []

section Interleaves

variable {insertions : List Insertion} {start : ℕ} {cs : List Char}

lemma keptOf_interleave (insertions : List Insertion) (start : ℕ) (cs : List Char) :
    keptOf (interleave insertions start cs) = cs := by
  induction cs generalizing start with
  | nil => exact keptOf_map_written _
  | cons c cs ih =>
      rw [interleave, keptOf_append, writtenAt, keptOf_map_written, keptOf_kept, ih]
      rfl

lemma place_of_writtenAt_eq {place : ℕ} {before after : List Fragment} {i : Insertion}
    (h : writtenAt insertions place = before ++ .written i :: after) :
    keptOf before = [] ∧ i.position = place := by
  obtain ⟨front, back, hsplit, rfl, hback⟩ := List.map_eq_append_iff.mp h
  obtain ⟨j, _, rfl, heq, -⟩ := List.map_eq_cons_iff.mp hback
  obtain rfl := Fragment.written.inj heq
  have hmem : j ∈ (insertions.filter (·.position = place)).reverse := by simp [hsplit]
  rw [List.mem_reverse, List.mem_filter] at hmem
  exact ⟨keptOf_map_written front, of_decide_eq_true hmem.2⟩

/-- An insertion stands at its place. -/
lemma place_of_interleave_eq {before after : List Fragment} {i : Insertion}
    (h : interleave insertions start cs = before ++ .written i :: after) :
    start + byteLength (keptOf before) = i.position := by
  induction cs generalizing start before with
  | nil =>
      obtain ⟨hbefore, hplace⟩ := place_of_writtenAt_eq h
      rw [hbefore, hplace]
      rfl
  | cons c cs ih =>
      rw [interleave, List.append_eq_append_iff] at h
      rcases h with ⟨front, rfl, hfront⟩ | ⟨back, hwritten, hback⟩
      · -- the insertion stands after the first character
        cases front with
        | nil => cases hfront
        | cons fragment front =>
            obtain ⟨rfl, hrest⟩ := List.cons.inj hfront
            rw [keptOf_append, writtenAt, keptOf_map_written, keptOf_kept, List.nil_append,
              byteLength, ← Nat.add_assoc]
            exact ih hrest
      · cases back with
        | nil => cases hback
        | cons fragment back =>
            obtain ⟨rfl, -⟩ := List.cons.inj hback
            obtain ⟨hbefore, hplace⟩ := place_of_writtenAt_eq hwritten
            rw [hbefore, hplace]
            rfl

/-- Nothing is inserted before the text begins. -/
lemma inserted_interleave_of_lt {place : ℕ} (h : place < start) :
    (insertionsOf (interleave insertions start cs)).filter (·.position = place) = [] := by
  refine List.filter_eq_nil_iff.mpr fun i hi => ?_
  obtain ⟨fragment, hfragment, heq⟩ := List.mem_filterMap.mp hi
  cases fragment with
  | kept c => cases heq
  | written j =>
      obtain rfl := Option.some.inj heq
      obtain ⟨before, after, hsplit⟩ := List.append_of_mem hfragment
      have hplace := place_of_interleave_eq hsplit
      simp only [decide_eq_true_eq]
      omega

/-- What is written at a place has it as its place. -/
lemma filter_writtenAt (insertions : List Insertion) (here place : ℕ) :
    (insertionsOf (writtenAt insertions here)).filter (·.position = place) =
      if place = here then (insertions.filter (·.position = place)).reverse else [] := by
  rw [writtenAt, insertionsOf_map_written, List.filter_reverse, List.filter_filter]
  split_ifs with h
  · simp [h]
  · rw [List.filter_eq_nil_iff.mpr, List.reverse_nil]
    intro i _
    simp only [Bool.and_eq_true, decide_eq_true_eq, not_and]
    exact fun hplace hhere => h (hplace.symm.trans hhere)

/-- At every boundary stand the insertions that have it as their place, and no others anywhere. -/
lemma inserted_interleave (insertions : List Insertion) (start : ℕ) (cs : List Char) (p : ℕ) :
    (insertionsOf (interleave insertions start cs)).filter (·.position = start + p) =
      if IsBoundary cs p then (insertions.filter (·.position = start + p)).reverse else [] := by
  induction cs generalizing start p with
  | nil =>
      rw [interleave, filter_writtenAt]
      rcases Nat.eq_zero_or_pos p with rfl | hpos
      · rw [Nat.add_zero, if_pos rfl, if_pos (isBoundary_zero [])]
      · have hend : ¬ IsBoundary [] p := fun hp => hpos.not_ge hp.le_byteLength
        rw [if_neg (by omega), if_neg hend]
  | cons c cs ih =>
      rw [interleave, insertionsOf_append, List.filter_append, filter_writtenAt, insertionsOf_kept]
      have hc := c.utf8Size_pos
      rcases Nat.eq_zero_or_pos p with rfl | hpos
      · rw [Nat.add_zero, if_pos rfl, if_pos (isBoundary_zero _),
          inserted_interleave_of_lt (by omega), List.append_nil]
      rw [if_neg (by omega), List.nil_append]
      rcases Nat.lt_or_ge p c.utf8Size with hlt | hle
      · have hinside : ¬ IsBoundary (c :: cs) p := by
          intro hp
          obtain ⟨m, rfl, -⟩ := exists_of_isBoundary_cons hpos hp
          omega
        rw [if_neg hinside, inserted_interleave_of_lt (by omega)]
      · obtain ⟨q, rfl⟩ := Nat.exists_eq_add_of_le hle
        have hsame : IsBoundary (c :: cs) (c.utf8Size + q) ↔ IsBoundary cs q := by
          refine ⟨fun hp => ?_, isBoundary_cons_add⟩
          obtain ⟨m, heq, hm⟩ := exists_of_isBoundary_cons hpos hp
          rwa [Nat.add_left_cancel heq]
        rw [← Nat.add_assoc, ih, if_congr hsame rfl rfl]

lemma interleaves_interleave (insertions : List Insertion) (cs : List Char) :
    Interleaves cs insertions (interleave insertions 0 cs) where
  kept := keptOf_interleave insertions 0 cs
  place before i after h := by
    rw [← place_of_interleave_eq h, Nat.zero_add]
  inserted place := by
    have hinserted := inserted_interleave insertions 0 cs place
    rwa [Nat.zero_add] at hinserted

end Interleaves

/-- **Writing one by one is writing at once.** Let any insertions be given for a text. What is
written is the text into which all of them are written at once: at every boundary of the text as it
was, a space and the alias of each insertion with this place, the last one first, and nothing for an
insertion whose place is no boundary. Without what is inserted it is the text as it was. The
insertions may be reordered in any way that keeps the order at each place. -/
theorem applyInsertions_eq_interleave (sql : String) (insertions : List Insertion) :
    Interleaves sql.toList insertions (interleave insertions 0 sql.toList) ∧
      (applyInsertions sql insertions).toList = textOf (interleave insertions 0 sql.toList) ∧
      ∀ other : List Insertion,
        (∀ place, IsBoundary sql.toList place →
          other.filter (·.position = place) = insertions.filter (·.position = place)) →
        applyInsertions sql other = applyInsertions sql insertions := by
  refine ⟨interleaves_interleave insertions sql.toList, toList_applyInsertions sql insertions,
    fun other hsame => ?_⟩
  rw [← String.toList_inj, toList_applyInsertions, toList_applyInsertions]
  refine congrArg textOf (interleave_congr fun p hp => ?_)
  rw [Nat.zero_add, writtenAt, hsame p hp, writtenAt]

/-- Two aliases at one place, one inside a character and one past the end. -/
example : applyInsertions "aéb" [⟨1, "t", "x"⟩, ⟨2, "u", "y"⟩, ⟨1, "v", "z"⟩, ⟨9, "w", "w"⟩] =
    "a z xéb" := by
  cbv

end SqlCompletion
