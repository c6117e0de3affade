import SqlCompletion.Proofs.Token.Splitting

/-!
A query that ends inside a token, save for a word.

* `covered_cut`: a text that ends early ends between two lexemes or inside one;
* `scan_of_operator`: an operator is the run of operator characters from where it begins;
* `exists_lexemes_cut`: the lexemes of a text that ends inside one of them are those before it and
  one that is neither a word nor a dot. Half of what opens a comment is an operator, and one with
  the operator before it.
-/

namespace SqlCompletion

open Text

/-- A text that ends early ends between two of the lexemes that cover it, or inside one. -/
lemma covered_cut {ls : List Lexeme} {x y : List Char} (h : covered ls = x ++ y) :
    (∃ a b, ls = a ++ b ∧ x = covered a ∧ y = covered b) ∨
      ∃ a l b p q, ls = a ++ l :: b ∧ l.text = p ++ q ∧ p ≠ [] ∧ q ≠ [] ∧
        x = covered a ++ p ∧ y = q ++ covered b := by
  induction ls generalizing x with
  | nil =>
      obtain ⟨rfl, rfl⟩ := List.append_eq_nil_iff.mp h.symm
      exact .inl ⟨[], [], rfl, rfl, rfl⟩
  | cons l ls ih =>
      rw [covered_cons] at h
      rcases List.append_eq_append_iff.mp h with ⟨x', rfl, hls⟩ | ⟨q, hl, hy⟩
      · -- the lexeme is covered whole
        rcases ih hls with ⟨a, b, rfl, rfl, rfl⟩ | ⟨a, l', b, p, q, rfl, hl', hp, hq, rfl, rfl⟩
        · exact .inl ⟨l :: a, b, rfl, rfl, rfl⟩
        · refine .inr ⟨l :: a, l', b, p, q, rfl, hl', hp, hq, ?_, rfl⟩
          rw [covered_cons, List.append_assoc]
      · by_cases hx : x = []
        · subst hx
          exact .inl ⟨[], l :: ls, rfl, rfl, by rw [hy, covered_cons, hl, List.nil_append]⟩
        by_cases hq : q = []
        · subst hq
          refine .inl ⟨[l], ls, rfl, ?_, by rw [hy, List.nil_append]⟩
          rw [covered_cons, covered_nil, hl, List.append_nil, List.append_nil]
        · exact .inr ⟨[], l, ls, x, q, rfl, hl, hx, hq, rfl, hy⟩

/-! ### Operators -/

section Operators

variable {c d : Char} {rest rest' part a : List Char} {l : Lexeme}

/-- An operator is the run of operator characters from where it begins, also before another text
of which the first character is the same. -/
lemma scan_of_operator (h : scan c rest = (l, a)) (hkind : l.kind = .operator)
    (hhead : rest.head? = rest'.head?) :
    scan c rest' = (.plain .operator (c :: (operatorRun rest').1), (operatorRun rest').2) := by
  obtain ⟨hc, hline, hblock⟩ := opens_of_operator h hkind
  have hopens := BeginsAlike.cons_of_head hhead c
  rw [hopens.line] at hline
  rw [hopens.block] at hblock
  exact scan_of_operatorChar hc hline hblock

/-- The run goes on with an operator character that opens no comment any more. -/
lemma operatorRun_of_mark (hd : isOperatorChar d = true)
    (h : operatorRun (part ++ d :: a) = (part, d :: a)) :
    operatorRun (part ++ [d]) = (part ++ [d], []) := by
  induction part with
  | nil =>
      simp [operatorRun_cons, hd, opensLineComment_cons, opensBlockComment_cons, operatorRun]
  | cons c part ih =>
      have hhead : (part ++ d :: a).head? = (part ++ [d]).head? := by cases part <;> rfl
      have hopens := BeginsAlike.cons_of_head hhead c
      rw [List.cons_append, operatorRun_cons, hopens.line, hopens.block] at h
      rw [List.cons_append, operatorRun_cons]
      split_ifs at h ⊢ with hc
      · obtain ⟨hpart, ha⟩ := Prod.mk.inj h
        rw [ih (Prod.ext (List.cons.inj hpart).2 ha)]
      · simp at h

end Operators

/-! ### Cuts inside a lexeme -/

section Cuts

variable {a b : List Lexeme} {l : Lexeme} {p q : List Char}

/-- The character that is left of the two that open a comment. -/
lemma isOperatorChar_of_opens {c : Char} {rest : List Char}
    (h : opensLineComment (c :: rest) = true ∨ opensBlockComment (c :: rest) = true) :
    isOperatorChar c = true ∧ scan c [] = (.plain .operator [c], []) := by
  rw [opensLineComment_cons, opensBlockComment_cons] at h
  simp only [Bool.and_eq_true, decide_eq_true_eq] at h
  rcases h with ⟨rfl, -⟩ | ⟨rfl, -⟩ <;> exact ⟨rfl, rfl⟩

/-- What is left of the mark of a comment is one operator with the operator before it. -/
lemma exists_lexemes_mark {c : Char} {rest : List Char}
    (h : lexemes (covered a ++ c :: rest) = a ++ lexemes (c :: rest))
    (hopens : opensLineComment (c :: rest) = true ∨ opensBlockComment (c :: rest) = true) :
    ∃ a' l', lexemes (covered a ++ [c]) = a' ++ [l'] ∧ l'.kind = .operator ∧
      (a' = a ∨ ∃ o, a = a' ++ [o] ∧ o.kind = .operator) := by
  obtain ⟨hc, hscan⟩ := isOperatorChar_of_opens hopens
  have hlast : lexemes [c] = [.plain .operator [c]] := by rw [lexemes, hscan, lexemes]
  cases a using List.reverseRecOn with
  | nil => exact ⟨[], _, hlast, rfl, .inl rfl⟩
  | append_singleton a m =>
      -- the lexeme before the mark, and those before it
      rw [covered_append, covered_cons, covered_nil, List.append_nil, List.append_assoc] at h ⊢
      have hread : lexemes (covered (a ++ m :: lexemes (c :: rest))) =
          a ++ m :: lexemes (c :: rest) := by
        rw [covered_append, covered_cons, covered_lexemes, h, List.append_assoc,
          List.singleton_append]
      have hsuffix := lexemes_covered_suffix hread
      obtain ⟨d, part, htext, hm, -⟩ := exists_scan_of_lexemes hsuffix
      rw [covered_cons, covered_lexemes] at hsuffix
      rw [covered_lexemes] at hm
      rw [htext, List.cons_append] at h hsuffix ⊢
      rw [List.append_assoc, List.singleton_append, ← hsuffix] at h
      have hhead : (part ++ c :: rest).head? = (part ++ [c]).head? := by cases part <;> rfl
      rw [lexemes_append_of_beginsAlike (BeginsAlike.cons_of_head hhead d) h]
      by_cases hkind : m.kind = .operator
      · have hrun := scan_of_operator hm hkind rfl
        rw [hm] at hrun
        obtain ⟨rfl, hrest⟩ := Prod.mk.inj hrun
        have hpart := eq_of_parts (operatorRun_append _) hrest.symm
        refine ⟨a, .plain .operator (d :: (part ++ [c])), ?_, rfl, .inr ⟨_, rfl, rfl⟩⟩
        rw [lexemes, scan_of_operator hm hkind hhead, operatorRun_of_mark hc hpart, lexemes]
      · refine ⟨a ++ [m], .plain .operator [c], ?_, rfl, .inl rfl⟩
        have hm' := scan_of_head (b := [c]) (List.head?_cons ..) (fun hk => absurd hk hkind) hm
        rw [lexemes, hm', hlast, List.append_assoc, List.singleton_append]

/-- Where a text ends inside a lexeme that is no word, the lexemes before it are read as before,
and the last is neither a word nor a dot. It may take an operator before it along. -/
lemma exists_lexemes_cut (h : lexemes (covered (a ++ l :: b)) = a ++ l :: b)
    (htext : l.text = p ++ q) (hp : p ≠ []) (hq : q ≠ []) (hword : l.kind.isWord = false) :
    l.kind ≠ .dot ∧
      ∃ a' l', lexemes (covered a ++ p) = a' ++ [l'] ∧ l'.kind.isWord = false ∧ l'.kind ≠ .dot ∧
        (a' = a ∨ ∃ o, a = a' ++ [o] ∧ o.kind = .operator) := by
  have hsuffix := lexemes_covered_suffix h
  obtain ⟨c, part, hpart, hscan, -⟩ := exists_scan_of_lexemes hsuffix
  obtain ⟨d, p, rfl⟩ := List.exists_cons_of_ne_nil hp
  have hcovered : covered (l :: b) = d :: (p ++ (q ++ covered b)) := by
    rw [covered_cons, htext, List.append_assoc, List.cons_append]
  rw [htext, List.cons_append] at hpart
  obtain ⟨rfl, rfl⟩ := List.cons.inj hpart
  rw [List.append_assoc] at hscan
  rw [hcovered] at hsuffix
  rw [covered_append, hcovered, ← hsuffix] at h
  have hdot : l.kind ≠ .dot := by
    intro hkind
    have hsingle := text_of_dot hscan hkind
    rw [htext] at hsingle
    exact hq (List.append_eq_nil_iff.mp (List.cons.inj hsingle).2).2
  refine ⟨hdot, ?_⟩
  by_cases hmark : p = [] ∧ l.kind = .comment
  · obtain ⟨rfl, hkind⟩ := hmark
    rw [List.nil_append] at hscan h
    have hopens := opens_of_comment hscan hkind
    obtain ⟨a', l', hread, hl', ha'⟩ := exists_lexemes_mark h hopens
    exact ⟨a', l', hread, by rw [hl']; rfl, by rw [hl']; simp, ha'⟩
  · have hmark' : p = [] → q = [] ∨ l.kind ≠ .comment := fun hnil =>
      .inr fun hkind => hmark ⟨hnil, hkind⟩
    obtain ⟨l', hscan', hkind, -⟩ := scan_cut hscan (.inr hword) hmark'
    have hopens := opens_cut hscan hmark'
    refine ⟨a, l', ?_, by rw [hkind, hword], by rwa [hkind], .inl rfl⟩
    have halike : BeginsAlike (d :: (p ++ (q ++ covered b))) (d :: p) := ⟨rfl, hopens.1, hopens.2⟩
    rw [lexemes_append_of_beginsAlike halike h, lexemes, hscan', lexemes]

end Cuts

end SqlCompletion
