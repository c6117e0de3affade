import Mathlib.Data.List.Nodup
import Mathlib.Tactic
import SqlCompletion.Proofs.Text.Bytes
import SqlCompletion.Token.Lexer

/-!
The tokens of a query cover it: each begins where the one before it ends.

* `covered_lexemes`: the lexemes of a text make up the text;
* `placeLexemes_append`: lexemes are placed one after another;
* `exists_lexeme_of_tokenize`: a token of a query, with the lexemes before and after it;
* `exists_scan_of_tokenize`, `exists_cut_of_tokenize`: how it is read off the query, and how a
  cursor cuts it;
* `isBoundary_start`, `isBoundary_stop`: tokens begin and end between characters;
* `eq_of_stop_eq`, `eq_of_contains`: no two tokens end at one place or are around it.
-/

namespace SqlCompletion

open Text

/-! ### Lexemes -/

/-- The text that lexemes cover. -/
def covered (ls : List Lexeme) : List Char :=
  ls.flatMap Lexeme.text

@[simp] lemma covered_nil : covered [] = [] := rfl

@[simp] lemma covered_cons (l : Lexeme) (ls : List Lexeme) :
    covered (l :: ls) = l.text ++ covered ls := rfl

@[simp] lemma covered_append (a b : List Lexeme) : covered (a ++ b) = covered a ++ covered b := by
  simp [covered]

/-- The lexemes of a text make up the text. -/
lemma covered_lexemes (cs : List Char) : covered (lexemes cs) = cs := by
  fun_induction lexemes cs with
  | case1 => rfl
  | case2 c rest step ih =>
      obtain ⟨more, htext, hrest⟩ := scan_append c rest
      rw [covered_cons, ih, htext, List.cons_append, hrest]

lemma text_ne_nil_of_mem_lexemes {cs : List Char} {l : Lexeme} (h : l ∈ lexemes cs) :
    l.text ≠ [] := by
  fun_induction lexemes cs with
  | case1 => simp at h
  | case2 c rest step ih =>
      rcases List.mem_cons.mp h with rfl | h
      · obtain ⟨more, htext, -⟩ := scan_append c rest
        simp [step, htext]
      · exact ih h

/-- The first lexeme of a text is what is read first, and the others are read after it. -/
lemma exists_scan_of_lexemes {l : Lexeme} {ls : List Lexeme}
    (h : lexemes (covered (l :: ls)) = l :: ls) :
    ∃ c part, l.text = c :: part ∧ scan c (part ++ covered ls) = (l, covered ls) ∧
      lexemes (covered ls) = ls := by
  rw [covered_cons] at h
  cases hcs : l.text ++ covered ls with
  | nil =>
      rw [hcs] at h
      simp [lexemes] at h
  | cons c rest =>
      rw [hcs, lexemes] at h
      obtain ⟨hl, hls⟩ := List.cons.inj h
      obtain ⟨part, htext, hrest⟩ := scan_append c rest
      rw [hl] at htext
      rw [htext, List.cons_append] at hcs
      have hafter : (scan c rest).2 = covered ls := by
        rw [← hrest] at hcs
        exact (List.append_cancel_left (List.cons.inj hcs).2).symm
      rw [hafter] at hls
      refine ⟨c, part, htext, ?_, hls⟩
      rw [(List.cons.inj hcs).2]
      exact Prod.ext hl hafter

/-- What is read last is what its own text is read as. -/
lemma lexemes_covered_suffix {a b : List Lexeme} (h : lexemes (covered (a ++ b)) = a ++ b) :
    lexemes (covered b) = b := by
  induction a with
  | nil => exact h
  | cons l a ih =>
      obtain ⟨c, part, -, -, hrest⟩ := exists_scan_of_lexemes h
      exact ih hrest

/-! ### Places -/

/-- A lexeme as a token that begins at a byte offset. -/
def Lexeme.placedAt (l : Lexeme) (start : ℕ) : Token :=
  ⟨l.kind, String.ofList l.value, start, start + byteLength l.text⟩

lemma placeLexemes_cons (start : ℕ) (l : Lexeme) (ls : List Lexeme) :
    placeLexemes start (l :: ls) =
      l.placedAt start :: placeLexemes (start + byteLength l.text) ls := rfl

lemma placeLexemes_append (start : ℕ) (a b : List Lexeme) :
    placeLexemes start (a ++ b) =
      placeLexemes start a ++ placeLexemes (start + byteLength (covered a)) b := by
  induction a generalizing start with
  | nil => simp [placeLexemes, byteLength]
  | cons l a ih =>
      rw [List.cons_append, placeLexemes_cons, ih, placeLexemes_cons, covered_cons,
        byteLength_append, Nat.add_assoc, List.cons_append]

/-- A division of placed lexemes divides the lexemes. -/
lemma exists_lexemes_of_placeLexemes {start : ℕ} {ls : List Lexeme} {before after : List Token}
    (h : placeLexemes start ls = before ++ after) :
    ∃ a b, ls = a ++ b ∧ before = placeLexemes start a ∧
      after = placeLexemes (start + byteLength (covered a)) b := by
  induction before generalizing start ls with
  | nil => exact ⟨[], ls, rfl, rfl, by simpa [byteLength] using h.symm⟩
  | cons t before ih =>
      cases ls with
      | nil => simp [placeLexemes] at h
      | cons l ls =>
          rw [placeLexemes_cons, List.cons_append] at h
          obtain ⟨rfl, hrest⟩ := List.cons.inj h
          obtain ⟨a, b, rfl, rfl, rfl⟩ := ih hrest
          refine ⟨l :: a, b, rfl, rfl, ?_⟩
          rw [covered_cons, byteLength_append, Nat.add_assoc]

/-- A token of a query stands for a lexeme of it, placed after the text of those before it. -/
lemma exists_lexeme_of_tokenize {sql : String} {before after : List Token} {t : Token}
    (h : tokenize sql = before ++ t :: after) :
    ∃ a l b, lexemes sql.toList = a ++ l :: b ∧ before = placeLexemes 0 a ∧
      t = l.placedAt (byteLength (covered a)) ∧
      after = placeLexemes (byteLength (covered a) + byteLength l.text) b := by
  obtain ⟨a, rest, hls, hbefore, hafter⟩ := exists_lexemes_of_placeLexemes h
  rw [Nat.zero_add] at hafter
  cases rest with
  | nil => simp [placeLexemes] at hafter
  | cons l b =>
      rw [placeLexemes_cons] at hafter
      obtain ⟨rfl, rfl⟩ := List.cons.inj hafter
      exact ⟨a, l, b, hls, hbefore, rfl, rfl⟩

/-- A query is the text before one of its lexemes, that of the lexeme and the rest. -/
lemma toList_of_lexemes {sql : String} {a b : List Lexeme} {l : Lexeme}
    (h : lexemes sql.toList = a ++ l :: b) : sql.toList = covered a ++ (l.text ++ covered b) := by
  rw [← covered_cons, ← covered_append, ← h, covered_lexemes]

/-- A token of a query is read off it after the text before the token. -/
lemma exists_scan_of_tokenize {sql : String} {t : Token} (h : t ∈ tokenize sql) :
    ∃ before c part after l, sql.toList = before ++ (l.text ++ after) ∧ l.text = c :: part ∧
      scan c (part ++ after) = (l, after) ∧ t = l.placedAt (byteLength before) := by
  obtain ⟨before, after, htokens⟩ := List.append_of_mem h
  obtain ⟨a, l, b, hls, -, rfl, -⟩ := exists_lexeme_of_tokenize htokens
  have hread : lexemes (covered (l :: b)) = l :: b :=
    lexemes_covered_suffix (a := a) (by rw [← hls, covered_lexemes])
  obtain ⟨c, part, htext, hscan, -⟩ := exists_scan_of_lexemes hread
  exact ⟨covered a, c, part, covered b, l, toList_of_lexemes hls, htext, hscan, rfl⟩

/-- Placed lexemes end no later than the text they cover. -/
lemma stop_le_of_mem_placeLexemes {start : ℕ} {ls : List Lexeme} {t : Token}
    (h : t ∈ placeLexemes start ls) : t.stop ≤ start + byteLength (covered ls) := by
  induction ls generalizing start with
  | nil => simp [placeLexemes] at h
  | cons l ls ih =>
      rw [covered_cons, byteLength_append, ← Nat.add_assoc]
      rw [placeLexemes_cons] at h
      rcases List.mem_cons.mp h with rfl | h
      · exact Nat.le_add_right _ _
      · exact ih h

/-- The last of placed lexemes ends where the text they cover ends. -/
lemma stop_of_mem_getLast?_placeLexemes {start : ℕ} {ls : List Lexeme} {t : Token}
    (h : t ∈ (placeLexemes start ls).getLast?) : t.stop = start + byteLength (covered ls) := by
  rcases List.eq_nil_or_concat ls with rfl | ⟨ls, l, rfl⟩
  · simp [placeLexemes] at h
  · rw [List.concat_eq_append, placeLexemes_append, placeLexemes_cons, placeLexemes] at h
    obtain rfl : l.placedAt _ = t := by simpa using h
    simp [Lexeme.placedAt, Nat.add_assoc]

/-! ### Boundaries -/

/-- A token begins between two characters, where the tokens before it end. -/
lemma isBoundary_start {sql : String} {before after : List Token} {t : Token}
    (h : tokenize sql = before ++ t :: after) : IsBoundary sql.toList t.start := by
  obtain ⟨a, l, b, hls, -, rfl, -⟩ := exists_lexeme_of_tokenize h
  have hsql : sql.toList = covered a ++ covered (l :: b) := by
    rw [← covered_append, ← hls, covered_lexemes]
  rw [hsql]
  exact isBoundary_append _ _

/-- A token ends between two characters. -/
lemma isBoundary_stop {sql : String} {before after : List Token} {t : Token}
    (h : tokenize sql = before ++ t :: after) : IsBoundary sql.toList t.stop := by
  obtain ⟨a, l, b, hls, -, rfl, -⟩ := exists_lexeme_of_tokenize h
  have hsql : sql.toList = covered (a ++ [l]) ++ covered b := by
    rw [← covered_append, List.append_assoc, List.singleton_append, ← hls, covered_lexemes]
  have hstop : (l.placedAt (byteLength (covered a))).stop = byteLength (covered (a ++ [l])) := by
    simp [Lexeme.placedAt]
  rw [hsql, hstop]
  exact isBoundary_append _ _

/-- A cursor between two characters of a token cuts the text of the token in two, of which the
second part is empty if the cursor is at the end of the token. -/
lemma exists_cut_of_tokenize {sql : String} {t : Token} {cursor : ℕ} (ht : t ∈ tokenize sql)
    (hcursor : IsBoundary sql.toList cursor) (hstart : t.start ≤ cursor) (hstop : cursor ≤ t.stop) :
    ∃ before p q after l, sql.toList = before ++ (p ++ (q ++ after)) ∧ l.text = p ++ q ∧
      t = l.placedAt (byteLength before) ∧ cursor = t.start + byteLength p ∧
      (t.stop ≤ cursor → q = []) ∧
      ∃ c part, l.text = c :: part ∧ scan c (part ++ after) = (l, after) := by
  obtain ⟨before, c, part, after, l, hsql, htext, hscan, rfl⟩ := exists_scan_of_tokenize ht
  obtain ⟨front, back, hsplit, rfl⟩ := hcursor.exists_split
  obtain ⟨p, rfl, hrest⟩ := exists_append_of_byteLength_le (hsql.symm.trans hsplit) hstart
  have hp : byteLength p ≤ byteLength l.text := by
    rw [byteLength_append] at hstop
    exact Nat.le_of_add_le_add_left hstop
  obtain ⟨q, hq, hback⟩ := exists_append_of_byteLength_le hrest.symm hp
  have hend : (l.placedAt (byteLength before)).stop ≤ byteLength (before ++ p) → q = [] := by
    intro hle
    rw [Lexeme.placedAt, hq, byteLength_append, byteLength_append] at hle
    dsimp only at hle
    rw [← byteLength_eq_zero_iff]
    omega
  refine ⟨before, p, q, after, l, ?_, hq, rfl, byteLength_append before p, hend, c, part, htext,
    hscan⟩
  rw [hsplit, hback, List.append_assoc]

/-- The first token begins at the start of the query. -/
lemma start_of_tokenize_cons {sql : String} {after : List Token} {t : Token}
    (h : tokenize sql = t :: after) : t.start = 0 := by
  have hfirst : tokenize sql = [] ++ t :: after := h
  obtain ⟨a, l, b, -, hbefore, rfl, -⟩ := exists_lexeme_of_tokenize hfirst
  cases a with
  | nil => rfl
  | cons l' a => simp [placeLexemes_cons] at hbefore

/-- Every other token begins where the one before it ends. -/
lemma start_eq_stop_of_tokenize {sql : String} {before after : List Token} {t t' : Token}
    (h : tokenize sql = before ++ t :: t' :: after) : t'.start = t.stop := by
  obtain ⟨a, l, b, -, -, rfl, hafter⟩ := exists_lexeme_of_tokenize h
  cases b with
  | nil => simp [placeLexemes] at hafter
  | cons l' b =>
      rw [placeLexemes_cons] at hafter
      rw [(List.cons.inj hafter).1]
      rfl

/-! ### The order of the ends -/

/-- Lexemes that cover something end one after another. -/
lemma pairwise_stop_placeLexemes (start : ℕ) {ls : List Lexeme} (h : ∀ l ∈ ls, l.text ≠ []) :
    ((placeLexemes start ls).map Token.stop).Pairwise (· < ·) ∧
      ∀ p ∈ (placeLexemes start ls).map Token.stop, start < p := by
  induction ls generalizing start with
  | nil => simp [placeLexemes]
  | cons l ls ih =>
      obtain ⟨hpairwise, hlt⟩ := ih (start + byteLength l.text) fun l' hl' =>
        h l' (List.mem_cons_of_mem l hl')
      have hpos := byteLength_pos (h l List.mem_cons_self)
      rw [placeLexemes_cons, List.map_cons, List.pairwise_cons]
      refine ⟨⟨hlt, hpairwise⟩, fun p hp => ?_⟩
      rcases List.mem_cons.mp hp with rfl | hp
      · exact Nat.lt_add_of_pos_right hpos
      · exact lt_of_le_of_lt (Nat.le_add_right _ _) (hlt p hp)

/-- Lexemes that cover something end after the place where the first begins. -/
lemma lt_stop_of_mem_placeLexemes {start : ℕ} {ls : List Lexeme} {t : Token}
    (h : ∀ l ∈ ls, l.text ≠ []) (ht : t ∈ placeLexemes start ls) : start < t.stop :=
  (pairwise_stop_placeLexemes start h).2 _ (List.mem_map_of_mem ht)

/-- The tokens of a query end one after another. -/
lemma pairwise_stop_tokenize (sql : String) :
    ((tokenize sql).map Token.stop).Pairwise (· < ·) :=
  (pairwise_stop_placeLexemes 0 fun _ => text_ne_nil_of_mem_lexemes).1

/-- No two tokens of a query end at one place. -/
lemma eq_of_stop_eq {sql : String} {t t' : Token} (ht : t ∈ tokenize sql)
    (ht' : t' ∈ tokenize sql) (h : t.stop = t'.stop) : t = t' :=
  List.inj_on_of_nodup_map ((pairwise_stop_tokenize sql).imp fun hlt => hlt.ne) ht ht' h

/-! ### Tokens apart from one another -/

lemma le_start_of_mem_placeLexemes {start : ℕ} {ls : List Lexeme} {t : Token}
    (h : t ∈ placeLexemes start ls) : start ≤ t.start := by
  induction ls generalizing start with
  | nil => simp [placeLexemes] at h
  | cons l ls ih =>
      rw [placeLexemes_cons] at h
      rcases List.mem_cons.mp h with rfl | h
      · exact le_rfl
      · exact (Nat.le_add_right _ _).trans (ih h)

/-- Each of placed lexemes begins where those before it have ended. -/
lemma pairwise_placeLexemes (start : ℕ) (ls : List Lexeme) :
    (placeLexemes start ls).Pairwise fun t t' => t.stop ≤ t'.start := by
  induction ls generalizing start with
  | nil => exact .nil
  | cons l ls ih => exact .cons (fun t => le_start_of_mem_placeLexemes) (ih _)

/-- No two tokens of a query are around one place. -/
lemma eq_of_contains {sql : String} {t t' : Token} {place : ℕ} (ht : t ∈ tokenize sql)
    (ht' : t' ∈ tokenize sql) (h : t.contains place) (h' : t'.contains place) : t = t' := by
  simp only [Token.contains, Bool.and_eq_true, decide_eq_true_eq] at h h'
  obtain ⟨before, after, htokens⟩ := List.append_of_mem ht
  have hpairwise : (tokenize sql).Pairwise fun t t' => t.stop ≤ t'.start :=
    pairwise_placeLexemes 0 _
  rw [htokens, List.pairwise_append, List.pairwise_cons] at hpairwise
  rw [htokens, List.mem_append, List.mem_cons] at ht'
  rcases ht' with hbefore | rfl | hafter
  · have hle := hpairwise.2.2 t' hbefore t List.mem_cons_self
    omega
  · rfl
  · have hle := hpairwise.2.1.1 t' hafter
    omega

/-- No token of a query is empty. -/
lemma start_lt_stop {sql : String} {t : Token} (ht : t ∈ tokenize sql) : t.start < t.stop := by
  obtain ⟨before, c, part, after, l, -, htext, -, rfl⟩ := exists_scan_of_tokenize ht
  have hne : l.text ≠ [] := by simp [htext]
  exact Nat.lt_add_of_pos_right (byteLength_pos hne)

/-- A token of a query ends no later than the query. -/
lemma stop_le_byteLength {sql : String} {t : Token} (ht : t ∈ tokenize sql) :
    t.stop ≤ byteLength sql.toList := by
  obtain ⟨before, after, htokens⟩ := List.append_of_mem ht
  exact (isBoundary_stop htokens).le_byteLength

/-- The last token of a query ends with it. -/
lemma stop_of_tokenize_concat {sql : String} {before : List Token} {t : Token}
    (h : tokenize sql = before ++ [t]) : t.stop = byteLength sql.toList := by
  have hlast : t ∈ (placeLexemes 0 (lexemes sql.toList)).getLast? := by
    rw [← tokenize, h]
    simp
  have hstop := stop_of_mem_getLast?_placeLexemes hlast
  rwa [covered_lexemes, Nat.zero_add] at hstop

end SqlCompletion
