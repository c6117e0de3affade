import SqlCompletion.Proofs.Alias.Interleaving
import SqlCompletion.Proofs.Token.Insertion

/-!
Aliases written into the text of a query, where they stand after words of it.

* `aliasAt`: the alias that is inserted at a place;
* `fromLast_of_increasing`: insertions in the order of their places are written from the last one;
* `foldr_splice`: at the ends of lexemes, insertions write their aliases after these lexemes.
-/

namespace SqlCompletion

open Text

/-- The alias that is inserted at a byte offset. -/
def aliasAt (insertions : List Insertion) (p : ℕ) : Option String :=
  (insertions.find? (·.position = p)).map Insertion.aliasName

lemma aliasAt_eq_none_iff {insertions : List Insertion} {p : ℕ} :
    aliasAt insertions p = none ↔ p ∉ insertions.map Insertion.position := by
  simp [aliasAt]

lemma exists_of_aliasAt {insertions : List Insertion} {p : ℕ} {a : String}
    (h : aliasAt insertions p = some a) :
    ∃ insertion ∈ insertions, insertion.position = p ∧ insertion.aliasName = a := by
  obtain ⟨insertion, hfind, ha⟩ := Option.map_eq_some_iff.mp h
  exact ⟨insertion, List.mem_of_find?_eq_some hfind, by simpa using List.find?_some hfind, ha⟩

/-- Where no two insertions have one place, each gives the alias at its own. -/
lemma aliasAt_of_mem {insertions : List Insertion}
    (h : (insertions.map Insertion.position).Pairwise (· < ·)) {insertion : Insertion}
    (hmem : insertion ∈ insertions) :
    aliasAt insertions insertion.position = some insertion.aliasName := by
  induction insertions with
  | nil => simp at hmem
  | cons i rest ih =>
      rw [List.map_cons, List.pairwise_cons] at h
      rcases List.mem_cons.mp hmem with rfl | hmem
      · simp [aliasAt]
      · have hlt := h.1 insertion.position (List.mem_map_of_mem hmem)
        rw [aliasAt, List.find?_cons_of_neg (by simpa using hlt.ne)]
        exact ih h.2 hmem

/-- Insertions in the order of their places are written from the last one. -/
lemma fromLast_of_increasing {insertions : List Insertion}
    (h : (insertions.map Insertion.position).Pairwise (· < ·)) :
    fromLast insertions = insertions.reverse := by
  have hsame : ∀ i ∈ insertions, ∀ j ∈ insertions, i.position = j.position → i = j :=
    fun i hi j hj => List.inj_on_of_nodup_map (h.imp fun hlt => hlt.ne) hi hj
  have hreverse : insertions.reverse.Pairwise fun i j => j.position ≤ i.position := by
    rw [List.pairwise_reverse]
    exact (List.pairwise_map.mp h).imp le_of_lt
  refine List.Perm.eq_of_pairwise (fun i j hi hj hij hji => ?_) (pairwise_fromLast insertions)
    hreverse ((List.mergeSort_perm insertions _).trans (List.reverse_perm insertions).symm)
  exact hsame i (List.mem_mergeSort.mp hi) j (List.mem_reverse.mp hj) (le_antisymm hji hij)

/-- At the ends of lexemes, insertions write their aliases after these lexemes. -/
lemma foldr_splice (front : List Char) {ls : List Lexeme} {insertions : List Insertion}
    {words : ℕ → Option String} (hls : ∀ l ∈ ls, l.text ≠ [])
    (hplaces : (insertions.map Insertion.position).Sublist
      ((placeLexemes (byteLength front) ls).map Token.stop))
    (hsome : ∀ insertion ∈ insertions, words insertion.position = some insertion.aliasName)
    (hnone : ∀ p ∈ (placeLexemes (byteLength front) ls).map Token.stop,
      p ∉ insertions.map Insertion.position → words p = none) :
    insertions.foldr (fun insertion cs => splice cs insertion) (front ++ covered ls) =
      front ++ covered (written words (byteLength front) ls) := by
  induction ls generalizing front insertions with
  | nil =>
      have hnil : insertions = [] := by simpa [placeLexemes] using hplaces
      rw [hnil]
      rfl
  | cons l ls ih =>
      have hfront : byteLength (front ++ l.text) = byteLength front + byteLength l.text :=
        byteLength_append front l.text
      have hlater := (pairwise_stop_placeLexemes (byteLength front) hls).1
      rw [placeLexemes_cons, List.map_cons, ← hfront] at hplaces hnone hlater
      have hls' : ∀ l ∈ ls, l.text ≠ [] := fun l' hl' => hls l' (List.mem_cons_of_mem l hl')
      rw [List.pairwise_cons] at hlater
      rw [written, covered_cons, ← List.append_assoc, covered_cons, covered_append, ← hfront,
        ← List.append_assoc]
      set stop := byteLength (front ++ l.text)
      have hstop : (l.placedAt (byteLength front)).stop = stop := hfront.symm
      rw [hstop] at hplaces hnone hlater
      rcases List.sublist_cons_iff.mp hplaces with hplaces | ⟨places, heq, hplaces⟩
      · -- nothing is written after the first lexeme, since all places come later
        have hnotMem : stop ∉ insertions.map Insertion.position := fun hmem =>
          lt_irrefl _ (hlater.1 stop (hplaces.mem hmem))
        rw [hnone stop (List.mem_cons_self ..) hnotMem]
        exact ih _ hls' hplaces hsome fun p hp => hnone p (List.mem_cons_of_mem stop hp)
      · obtain ⟨insertion, rest, rfl, hposition, rfl⟩ := List.map_eq_cons_iff.mp heq
        have hrest : rest.foldr (fun insertion cs => splice cs insertion)
            (front ++ l.text ++ covered ls) =
              front ++ l.text ++ covered (written words stop ls) := by
          refine ih _ hls' hplaces (fun i hi => hsome i (List.mem_cons_of_mem insertion hi)) ?_
          intro p hp hnotMem
          refine hnone p (List.mem_cons_of_mem stop hp) ?_
          rw [List.map_cons, hposition, List.mem_cons, not_or]
          exact ⟨(hlater.1 p hp).ne', hnotMem⟩
        have hword : words stop = some insertion.aliasName := by
          rw [← hposition]
          exact hsome insertion (List.mem_cons_self ..)
        rw [List.foldr_cons, hrest, splice, hposition, splitAt?_append, hword]
        simp [spaced, covered, Lexeme.space, Lexeme.word, Lexeme.plain]

end SqlCompletion
