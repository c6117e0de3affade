import SqlCompletion.Proofs.Usage.Ranking
import SqlCompletion.Suggestion.Candidates

/-!
What is kept of the candidates for a typed word.

* `firstOfEach_sublist`, `exists_mem_firstOfEach`, `pairwise_firstOfEach`: the first elements of
  each key are some of the elements, one for each key that occurs;
* `filter_firstOfEach`: where a property of the keys decides, the elements without it are left out
  before or after;
* `narrow_eq`: so which of the suggestions that are the same to the user is kept does not depend on
  the word;
* `suggestions_of_longer_word`: the suggestions for a longer word are those of the suggestions for
  the word that begin with it.
-/

namespace SqlCompletion

open Text

/-! ### The first of each key -/

section FirstOfEach

variable {α κ : Type} [BEq κ] (key : α → κ)

/-- Keeping the first of each key depends on the keys only. -/
lemma map_firstOfEach (seen : List κ) (xs : List α) :
    (firstOfEach key seen xs).map key = firstOfEach id seen (xs.map key) := by
  induction xs generalizing seen with
  | nil => rfl
  | cons x xs ih =>
      rw [firstOfEach, List.map_cons, firstOfEach, id, ← ih, ← ih]
      split_ifs <;> rfl

lemma firstOfEach_sublist (seen : List κ) (xs : List α) :
    (firstOfEach key seen xs).Sublist xs := by
  induction xs generalizing seen with
  | nil => exact .slnil
  | cons x xs ih =>
      rw [firstOfEach]
      split_ifs
      · exact (ih seen).cons x
      · exact (ih (key x :: seen)).cons_cons x

variable [LawfulBEq κ] {key}

lemma firstOfEach_cons_of_mem {seen : List κ} {x : α} (h : key x ∈ seen) (xs : List α) :
    firstOfEach key seen (x :: xs) = firstOfEach key seen xs := by
  rw [firstOfEach, if_pos (List.contains_iff_mem.mpr h)]

lemma firstOfEach_cons_of_notMem {seen : List κ} {x : α} (h : key x ∉ seen) (xs : List α) :
    firstOfEach key seen (x :: xs) = x :: firstOfEach key (key x :: seen) xs := by
  rw [firstOfEach, if_neg (mt List.contains_iff_mem.mp h)]

lemma key_notMem_of_mem_firstOfEach {seen : List κ} {xs : List α} {x : α}
    (h : x ∈ firstOfEach key seen xs) : key x ∉ seen := by
  induction xs generalizing seen with
  | nil => cases h
  | cons y ys ih =>
      by_cases hy : key y ∈ seen
      · rw [firstOfEach_cons_of_mem hy] at h
        exact ih h
      · rw [firstOfEach_cons_of_notMem hy, List.mem_cons] at h
        rcases h with rfl | h
        · exact hy
        · exact fun hx => ih h (List.mem_cons_of_mem _ hx)

/-- No key is kept twice. -/
lemma pairwise_firstOfEach (seen : List κ) (xs : List α) :
    (firstOfEach key seen xs).Pairwise fun x y => key x ≠ key y := by
  induction xs generalizing seen with
  | nil => exact .nil
  | cons x xs ih =>
      by_cases hx : key x ∈ seen
      · rw [firstOfEach_cons_of_mem hx]
        exact ih seen
      · rw [firstOfEach_cons_of_notMem hx]
        refine .cons (fun y hy heq => ?_) (ih _)
        exact key_notMem_of_mem_firstOfEach hy (heq ▸ List.mem_cons_self ..)

/-- Every key that is new is kept. -/
lemma exists_mem_firstOfEach {seen : List κ} {xs : List α} {x : α} (hx : x ∈ xs)
    (hkey : key x ∉ seen) : ∃ y ∈ firstOfEach key seen xs, key y = key x := by
  induction xs generalizing seen with
  | nil => cases hx
  | cons y ys ih =>
      by_cases hy : key y ∈ seen
      · rw [firstOfEach_cons_of_mem hy]
        rcases List.mem_cons.mp hx with rfl | hx
        · exact absurd hy hkey
        · exact ih hx hkey
      · rw [firstOfEach_cons_of_notMem hy]
        by_cases heq : key y = key x
        · exact ⟨y, List.mem_cons_self .., heq⟩
        · have hx : x ∈ ys := by
            rcases List.mem_cons.mp hx with rfl | hx
            · exact absurd rfl heq
            · exact hx
          have hnew : key x ∉ key y :: seen := by
            rw [List.mem_cons]
            exact not_or.mpr ⟨Ne.symm heq, hkey⟩
          obtain ⟨z, hz, hzx⟩ := ih hx hnew
          exact ⟨z, List.mem_cons_of_mem y hz, hzx⟩

/-- Where a property of the keys decides which elements are left out, it makes no difference whether
this is done before or after. Of the keys that were seen only those with the property matter. -/
lemma filter_firstOfEach (q : κ → Bool) {seen seen' : List κ}
    (h : ∀ k, q k = true → (k ∈ seen ↔ k ∈ seen')) (xs : List α) :
    (firstOfEach key seen xs).filter (q ∘ key) =
      firstOfEach key seen' (xs.filter (q ∘ key)) := by
  induction xs generalizing seen seen' with
  | nil => rfl
  | cons x xs ih =>
      by_cases hq : (q ∘ key) x = true
      · rw [List.filter_cons_of_pos hq]
        by_cases hx : key x ∈ seen
        · rw [firstOfEach_cons_of_mem hx, firstOfEach_cons_of_mem ((h _ hq).mp hx), ih h]
        · have hseen : ∀ k, q k = true → (k ∈ key x :: seen ↔ k ∈ key x :: seen') := fun k hk => by
            rw [List.mem_cons, List.mem_cons, h k hk]
          rw [firstOfEach_cons_of_notMem hx, firstOfEach_cons_of_notMem (mt (h _ hq).mpr hx),
            List.filter_cons_of_pos hq, ih hseen]
      · rw [List.filter_cons_of_neg hq]
        by_cases hx : key x ∈ seen
        · rw [firstOfEach_cons_of_mem hx, ih h]
        · have hseen : ∀ k, q k = true → (k ∈ key x :: seen ↔ k ∈ seen') := fun k hk => by
            have hne : k ≠ key x := by
              rintro rfl
              exact hq hk
            rw [List.mem_cons, h k hk, or_iff_right hne]
          rw [firstOfEach_cons_of_notMem hx, List.filter_cons_of_neg hq, ih hseen]

end FirstOfEach

/-! ### Narrowing -/

section Narrowing

variable {word longer : String} {all : List Suggestion}

lemma map_narrow (word : String) (all : List Suggestion) :
    (narrow word all).map identityOf =
      firstOfEach id [] ((all.map identityOf).filter fun identity =>
        (lower word).toList.isPrefixOf identity.2.toList) := by
  rw [narrow, map_firstOfEach, List.filter_map]
  rfl

lemma mem_of_mem_narrow {s : Suggestion} (h : s ∈ narrow word all) :
    s ∈ all ∧ beginsWith word s.label = true :=
  List.mem_filter.mp ((firstOfEach_sublist _ _ _).mem h)

lemma pairwise_narrow : (narrow word all).Pairwise fun s t => identityOf s ≠ identityOf t :=
  pairwise_firstOfEach _ _

/-- Of the suggestions that begin with the word one is kept that is the same to the user. -/
lemma exists_mem_narrow {s : Suggestion} (hs : s ∈ all) (hword : beginsWith word s.label = true) :
    ∃ t ∈ narrow word all, identityOf t = identityOf s :=
  exists_mem_firstOfEach (List.mem_filter.mpr ⟨hs, hword⟩) List.not_mem_nil

/-- Which of the suggestions that are the same to the user is kept does not depend on the word. -/
lemma narrow_eq (word : String) (all : List Suggestion) :
    narrow word all =
      (firstOfEach identityOf [] all).filter fun s => beginsWith word s.label :=
  (filter_firstOfEach (fun identity : Category × String =>
    (lower word).toList.isPrefixOf identity.2.toList) (fun _ _ => Iff.rfl) all).symm

/-- What begins with a longer word begins with the word. -/
lemma beginsWith_of_longer (h : (lower word).toList <+: (lower longer).toList) {label : String}
    (hlonger : beginsWith longer label = true) : beginsWith word label = true :=
  List.isPrefixOf_iff_prefix.mpr (h.trans (List.isPrefixOf_iff_prefix.mp hlonger))

lemma narrow_of_longer (h : (lower word).toList <+: (lower longer).toList)
    (all : List Suggestion) :
    narrow longer all = (narrow word all).filter fun s => beginsWith longer s.label := by
  rw [narrow_eq, narrow_eq, List.filter_filter]
  refine List.filter_congr fun s _ => ?_
  cases hs : beginsWith longer s.label with
  | false => rfl
  | true => exact (beginsWith_of_longer h hs).symm

end Narrowing

/-- **Typing narrows the list.** Whatever the place of the cursor, the schema, the functions and the
keywords: when the word goes on, up to letter case, the suggestions are those of the suggestions for
the word whose label begins with the longer word in small letters, in the same order and with the
same details. They are also ranked as they were ranked for the word, whatever the counts of use. -/
theorem suggestions_of_longer_word (context : Context) (longer : String)
    (h : (lower context.currentWord).toList <+: (lower longer).toList) (schema : Schema)
    (functions keywords : List String) :
    let shown := suggestions context schema functions keywords
    let fresh := suggestions { context with currentWord := longer } schema functions keywords
    (fresh = shown.filter fun s => (lower longer).toList.isPrefixOf (lower s.label).toList) ∧
      ∀ {σ : Type} (tracker : Tracker σ), tracker.rank fresh =
        (tracker.rank shown).filter fun r =>
          (lower longer).toList.isPrefixOf (lower r.suggestion.label).toList := by
  intro shown fresh
  have hfresh : fresh = shown.filter fun s => beginsWith longer s.label :=
    narrow_of_longer h (candidates context schema functions keywords)
  refine ⟨hfresh, fun tracker => ?_⟩
  rw [hfresh, tracker.rank_filter]
  rfl

/-- The word goes on in another case, and of two keywords that differ in case the first is kept
before and after. -/
theorem suggestions_of_longer_word_case :
    let context : Context := { currentWord := "U" }
    let context' : Context := { context with currentWord := "uS" }
    let keywords := ["Using", "UNION", "USING", "set", "use"]
    (lower "U").toList <+: (lower "uS").toList ∧
      suggestions context ⟨[]⟩ [] keywords =
        [⟨"Using", .keyword, none⟩, ⟨"UNION", .keyword, none⟩, ⟨"use", .keyword, none⟩] ∧
      suggestions context' ⟨[]⟩ [] keywords =
        [⟨"Using", .keyword, none⟩, ⟨"use", .keyword, none⟩] := by
  intro context context' keywords
  have hlonger : (lower "U").toList <+: (lower "uS").toList := by decide +kernel
  have hshown : suggestions context ⟨[]⟩ [] keywords =
      [⟨"Using", .keyword, none⟩, ⟨"UNION", .keyword, none⟩, ⟨"use", .keyword, none⟩] := by
    decide +kernel
  refine ⟨hlonger, hshown, ?_⟩
  rw [(suggestions_of_longer_word context "uS" hlonger ⟨[]⟩ [] keywords).1, hshown]
  decide +kernel

end SqlCompletion
