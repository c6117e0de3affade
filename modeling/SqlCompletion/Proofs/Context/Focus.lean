import Mathlib.Data.List.TakeWhile
import SqlCompletion.Context
import SqlCompletion.Proofs.Token.Tiling

/-!
The token a cursor belongs to.

* `Focus.tokens_of_ofCursor?`: it stands between the tokens before and after it, and those before it
  end no later than the cursor;
* `Focus.ofCursor?_of_continues`, `Focus.ofCursor?_of_reaches`, `Focus.ofCursor?_of_ended`: which
  token it is, by what ends at the cursor and what reaches past it;
* `Focus.Stands`, `Focus.stands_of_ofCursor?`: how it stands to the cursor in a query;
* `Focus.token_eq_of_lt`: a word or a dot that the cursor is in, or at the end of, is this token.
-/

namespace SqlCompletion

open Text

namespace Focus

/-- The token of a cursor divides the tokens, and those before it end no later than the cursor. -/
lemma tokens_of_ofCursor? {tokens : List Token} {cursor : ℕ} {focus : Focus}
    (h : ofCursor? tokens cursor = some focus) :
    tokens = focus.before.reverse ++ focus.token :: focus.after ∧
      ∀ t ∈ focus.before, t.stop ≤ cursor := by
  have happend : tokens.takeWhile (·.stop ≤ cursor) ++ tokens.dropWhile (·.stop ≤ cursor) =
      tokens := List.takeWhile_append_dropWhile
  have hended : ∀ t ∈ (tokens.takeWhile (·.stop ≤ cursor)).reverse, t.stop ≤ cursor :=
    fun t ht => by simpa using List.mem_takeWhile_imp (List.mem_reverse.mp ht)
  rw [← happend, ← List.reverse_reverse (tokens.takeWhile (·.stop ≤ cursor))]
  simp only [ofCursor?] at h
  generalize (tokens.takeWhile (·.stop ≤ cursor)).reverse = ended at h hended ⊢
  generalize tokens.dropWhile (·.stop ≤ cursor) = remaining at h ⊢
  split at h
  · cases h
  · cases h
    exact ⟨rfl, by simp⟩
  · rename_i t before
    cases h
    exact ⟨by simp, fun t' ht' => hended t' (by simp [ht'])⟩
  · rename_i t before next after
    split at h
    · cases h
      exact ⟨by simp, fun t' ht' => hended t' (by simp [ht'])⟩
    · cases h
      exact ⟨rfl, hended⟩

/-- The token of a cursor begins no later than the cursor. -/
lemma start_le_of_ofCursor? {sql : String} {cursor : ℕ} {focus : Focus}
    (h : ofCursor? (tokenize sql) cursor = some focus) : focus.token.start ≤ cursor := by
  obtain ⟨htokens, hended⟩ := tokens_of_ofCursor? h
  cases hbefore : focus.before with
  | nil =>
      rw [hbefore] at htokens
      rw [start_of_tokenize_cons htokens]
      exact Nat.zero_le _
  | cons t before =>
      rw [hbefore, List.reverse_cons, List.append_assoc] at htokens
      rw [start_eq_stop_of_tokenize htokens]
      exact hended t (by simp [hbefore])

variable {ended rest : List Token} {t : Token} {cursor : ℕ}

lemma ofCursor?_append (hended : ∀ x ∈ ended, x.stop ≤ cursor)
    (hrest : ∀ x ∈ rest.head?, cursor < x.stop) :
    (ended ++ rest).takeWhile (·.stop ≤ cursor) = ended ∧
      (ended ++ rest).dropWhile (·.stop ≤ cursor) = rest := by
  have hnot : rest.takeWhile (·.stop ≤ cursor) = [] ∧ rest.dropWhile (·.stop ≤ cursor) = rest := by
    cases rest with
    | nil => exact ⟨rfl, rfl⟩
    | cons x rest =>
        have hx : ¬ x.stop ≤ cursor := Nat.not_le.mpr (hrest x rfl)
        simp [hx]
  rw [List.takeWhile_append_of_pos (by simpa using hended),
    List.dropWhile_append_of_pos (by simpa using hended), hnot.1, hnot.2]
  simp

/-- A word or a dot that ends at the cursor is the token of the cursor. -/
lemma ofCursor?_of_continues (hended : ∀ x ∈ ended, x.stop ≤ cursor)
    (hrest : ∀ x ∈ rest, cursor < x.stop) (hstop : t.stop = cursor) (ht : continues t) :
    ofCursor? (ended ++ t :: rest) cursor = some ⟨ended.reverse, t, rest⟩ := by
  have hended' : ∀ x ∈ ended ++ [t], x.stop ≤ cursor := by
    intro x hx
    rcases List.mem_append.mp hx with hx | hx
    · exact hended x hx
    · rw [List.mem_singleton.mp hx, hstop]
  obtain ⟨hfront, hback⟩ := ofCursor?_append hended' fun x hx =>
    hrest x (List.mem_of_mem_head? hx)
  rw [List.append_assoc, List.singleton_append] at hfront hback
  simp only [ofCursor?, hfront, hback, List.reverse_append, List.reverse_singleton,
    List.singleton_append]
  cases rest with
  | nil => rfl
  | cons next rest => simp [hstop, ht]

/-- Where no word and no dot ends at the cursor, the token that reaches past it is that of the
cursor. -/
lemma ofCursor?_of_reaches (hended : ∀ x ∈ ended, x.stop ≤ cursor)
    (hquiet : ∀ x ∈ ended, x.stop = cursor → continues x = false) (ht : cursor < t.stop) :
    ofCursor? (ended ++ t :: rest) cursor = some ⟨ended.reverse, t, rest⟩ := by
  have hhead : ∀ x ∈ (t :: rest).head?, cursor < x.stop := by
    rintro x ⟨⟩
    exact ht
  obtain ⟨hfront, hback⟩ := ofCursor?_append hended hhead
  simp only [ofCursor?, hfront, hback]
  cases hlast : ended.reverse with
  | nil => rfl
  | cons x before =>
      have hx : x ∈ ended := List.mem_reverse.mp (by simp [hlast])
      simp only
      rw [if_neg]
      intro hcontinues
      simp only [Bool.and_eq_true, decide_eq_true_eq] at hcontinues
      rw [hquiet x hx hcontinues.1] at hcontinues
      cases hcontinues.2

/-- Where no token reaches past the cursor, the last one is that of the cursor. -/
lemma ofCursor?_of_ended (hended : ∀ x ∈ ended ++ [t], x.stop ≤ cursor) :
    ofCursor? (ended ++ [t]) cursor = some ⟨ended.reverse, t, []⟩ := by
  have hhead : ∀ x ∈ ([] : List Token).head?, cursor < x.stop := by simp
  obtain ⟨hfront, hback⟩ := ofCursor?_append hended hhead
  rw [List.append_nil] at hfront hback
  simp only [ofCursor?, hfront, hback, List.reverse_append, List.reverse_singleton,
    List.singleton_append]

/-! ### The token of a cursor in a query -/

section Query

variable {sql : String} {focus : Focus}

/-- A word or a dot of a query is the token of the cursor at its end. -/
lemma ofCursor?_stop (htokens : tokenize sql = ended ++ t :: rest) (ht : continues t) :
    ofCursor? (tokenize sql) t.stop = some ⟨ended.reverse, t, rest⟩ := by
  have hpairwise := List.pairwise_map.mp (pairwise_stop_tokenize sql)
  rw [htokens, List.pairwise_append, List.pairwise_cons] at hpairwise
  have hended : ∀ x ∈ ended, x.stop ≤ t.stop := fun x hx =>
    (hpairwise.2.2 x hx t List.mem_cons_self).le
  rw [htokens]
  exact ofCursor?_of_continues hended hpairwise.2.1.1 rfl ht

lemma token_mem_of_ofCursor? (h : ofCursor? (tokenize sql) cursor = some focus) :
    focus.token ∈ tokenize sql := by
  rw [(tokens_of_ofCursor? h).1]
  simp

/-- How a token stands to the cursor that it is the token of. -/
inductive Stands (tokens : List Token) (cursor : ℕ) (t : Token) : Prop
  /-- It is a word or a dot, and the cursor is at its end. -/
  | typed (hstop : t.stop = cursor) (hcontinues : continues t)
  /-- The cursor is at its start or in it, and at the end of no word and no dot. -/
  | around (hcontains : t.contains cursor)
      (hquiet : ∀ x ∈ tokens, x.stop = cursor → continues x = false)
  /-- The cursor is at the end of all tokens, and this is the last. -/
  | last (hstop : t.stop = cursor) (hcontinues : continues t = false)
      (hended : ∀ x ∈ tokens, x.stop ≤ cursor)

/-- The token of a cursor ends there or later. -/
lemma Stands.le_stop {tokens : List Token} (h : Stands tokens cursor t) : cursor ≤ t.stop := by
  cases h with
  | typed hstop _ => exact hstop.ge
  | around hcontains _ =>
      simp only [Token.contains, Bool.and_eq_true, decide_eq_true_eq] at hcontains
      exact hcontains.2.le
  | last hstop _ _ => exact hstop.ge

/-- The token of a cursor ends there, reaches past it, or is the last. -/
lemma reach_of_ofCursor? {tokens : List Token} (h : ofCursor? tokens cursor = some focus) :
    focus.token.stop = cursor ∧ continues focus.token ∨ cursor < focus.token.stop ∨
      focus.after = [] := by
  have hnext : ∀ x ∈ (tokens.dropWhile (·.stop ≤ cursor)).head?, cursor < x.stop := by
    intro x hx
    have hnot := List.head?_dropWhile_not (fun t : Token => decide (t.stop ≤ cursor)) tokens
    rw [hx] at hnot
    simpa using hnot
  simp only [ofCursor?] at h
  split at h
  · cases h
  · rename_i hremaining
    cases h
    exact .inr (.inl (hnext _ (by rw [hremaining]; rfl)))
  · cases h
    exact .inr (.inr rfl)
  · rename_i hremaining
    split at h
    · rename_i hcontinues
      cases h
      simp only [Bool.and_eq_true, decide_eq_true_eq] at hcontinues
      exact .inl hcontinues
    · cases h
      exact .inr (.inl (hnext _ (by rw [hremaining]; rfl)))

/-- The token of a cursor is the word or the dot that ends there, else the token around the cursor,
else the last one. -/
lemma stands_of_ofCursor? (hle : cursor ≤ byteLength sql.toList)
    (h : ofCursor? (tokenize sql) cursor = some focus) :
    Stands (tokenize sql) cursor focus.token := by
  by_cases hquiet : ∀ x ∈ tokenize sql, x.stop = cursor → continues x = false
  · rcases Nat.lt_or_ge cursor focus.token.stop with hreaches | hended
    · exact .around (by simp [Token.contains, start_le_of_ofCursor? h, hreaches]) hquiet
    · rcases reach_of_ofCursor? h with ⟨hstop, hcontinues⟩ | hreaches | hafter
      · exact .typed hstop hcontinues
      · exact absurd hreaches hended.not_gt
      · obtain ⟨htokens, -⟩ := tokens_of_ofCursor? h
        rw [hafter] at htokens
        have hend := stop_of_tokenize_concat htokens
        have hstop : focus.token.stop = cursor := le_antisymm hended (hle.trans hend.ge)
        refine .last hstop (hquiet _ (token_mem_of_ofCursor? h) hstop) fun x hx => ?_
        rw [← hstop, hend]
        exact stop_le_byteLength hx
  · simp only [not_forall, Bool.not_eq_false] at hquiet
    obtain ⟨x, hx, rfl, hcontinues⟩ := hquiet
    obtain ⟨ended, rest, htokens⟩ := List.append_of_mem hx
    rw [ofCursor?_stop htokens hcontinues] at h
    cases h
    exact .typed rfl hcontinues

/-- Where there are tokens, one of them is that of the cursor. -/
lemma exists_ofCursor? {tokens : List Token} (hne : tokens ≠ []) (cursor : ℕ) :
    ∃ focus, ofCursor? tokens cursor = some focus := by
  have happend : tokens.takeWhile (·.stop ≤ cursor) ++ tokens.dropWhile (·.stop ≤ cursor) =
      tokens := List.takeWhile_append_dropWhile
  simp only [ofCursor?]
  split
  · rename_i hended hremaining
    rw [List.reverse_eq_nil_iff.mp hended, hremaining] at happend
    exact absurd happend.symm hne
  · exact ⟨_, rfl⟩
  · exact ⟨_, rfl⟩
  · split <;> exact ⟨_, rfl⟩

/-- A word or a dot that begins before the cursor, and ends no earlier than there, is the token of
the cursor. -/
lemma token_eq_of_lt (ht : t ∈ tokenize sql) (hcontinues : continues t) (hstart : t.start < cursor)
    (hstop : cursor ≤ t.stop) (h : ofCursor? (tokenize sql) cursor = some focus) :
    focus.token = t := by
  have hle : cursor ≤ byteLength sql.toList := hstop.trans (stop_le_byteLength ht)
  have htoken := token_mem_of_ofCursor? h
  have heq_of_stop : focus.token.stop = cursor → focus.token = t := by
    intro hend
    have hlt := start_lt_stop htoken
    -- the byte before the cursor is in both
    have hin : focus.token.contains (cursor - 1) := by
      simp only [Token.contains, Bool.and_eq_true, decide_eq_true_eq]
      omega
    have hin' : t.contains (cursor - 1) := by
      simp only [Token.contains, Bool.and_eq_true, decide_eq_true_eq]
      omega
    exact eq_of_contains htoken ht hin hin'
  cases stands_of_ofCursor? hle h with
  | typed hend _ => exact heq_of_stop hend
  | last hend _ _ => exact heq_of_stop hend
  | around hcontains hquiet =>
      rcases hstop.lt_or_eq with hlt | hend
      · exact eq_of_contains htoken ht hcontains (by simp [Token.contains, hstart.le, hlt])
      · rw [hquiet t ht hend.symm] at hcontinues
        cases hcontinues

end Query

end Focus

end SqlCompletion
