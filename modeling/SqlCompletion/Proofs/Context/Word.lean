import SqlCompletion.Proofs.Context.Focus

/-!
The word being typed, and where it begins.

* `Context.word_resolve`, `Context.resolve_of_isWord`: it is the part of the cursor's token up to
  the cursor, if this token is a word;
* `Context.wordStart_le`, `Context.isBoundary_wordStart`: the word begins between two characters,
  no later than the cursor.
-/

namespace SqlCompletion

open Text

namespace Context

/-- What the token of a cursor says about the word and about a dot before it. -/
lemma resolve_of_focus {sql : String} {cursor : ℕ} {focus : Focus}
    (h : Focus.ofCursor? (tokenize sql) (min cursor (byteLength sql.toList)) = some focus)
    (selectedDatabase : Option String) :
    (resolve sql cursor selectedDatabase).isAfterDot = focus.beforeDot?.isSome ∧
      (resolve sql cursor selectedDatabase).wordStart =
        (if focus.token.kind.isWord then focus.token.start
          else min cursor (byteLength sql.toList)) ∧
      (resolve sql cursor selectedDatabase).currentWord =
        (if focus.token.kind.isWord then
          Focus.wordBefore sql.toList focus.token (min cursor (byteLength sql.toList))
          else "") := by
  simp only [resolve, h]
  exact ⟨rfl, rfl, rfl⟩

/-- The word is the part of the cursor's token up to the cursor, or there is none yet and it begins
at the cursor. -/
lemma word_resolve (sql : String) (cursor : ℕ) (selectedDatabase : Option String) :
    (∃ focus, Focus.ofCursor? (tokenize sql) (min cursor (byteLength sql.toList)) = some focus ∧
        focus.token.kind.isWord ∧
        (resolve sql cursor selectedDatabase).wordStart = focus.token.start ∧
        (resolve sql cursor selectedDatabase).currentWord =
          Focus.wordBefore sql.toList focus.token (min cursor (byteLength sql.toList))) ∨
      (resolve sql cursor selectedDatabase).wordStart = min cursor (byteLength sql.toList) ∧
        (resolve sql cursor selectedDatabase).currentWord = "" := by
  cases hfocus : Focus.ofCursor? (tokenize sql) (min cursor (byteLength sql.toList)) with
  | none =>
      exact .inr ⟨by simp only [resolve, hfocus], by simp only [resolve, hfocus]⟩
  | some focus =>
      obtain ⟨-, hstart, hword⟩ := resolve_of_focus hfocus selectedDatabase
      rw [hstart, hword]
      split_ifs with hisWord
      · exact .inl ⟨focus, rfl, hisWord, rfl, rfl⟩
      · exact .inr ⟨rfl, rfl⟩

/-- The word begins no later than the cursor. -/
lemma wordStart_le (sql : String) (cursor : ℕ) (selectedDatabase : Option String) :
    (resolve sql cursor selectedDatabase).wordStart ≤ min cursor (byteLength sql.toList) := by
  rcases word_resolve sql cursor selectedDatabase with
    ⟨focus, hfocus, -, hstart, -⟩ | ⟨hstart, -⟩
  · rw [hstart]
    exact Focus.start_le_of_ofCursor? hfocus
  · exact hstart.le

/-- Of a word that the cursor is in, or at the end of, the part up to the cursor is typed. -/
lemma resolve_of_isWord {sql : String} {cursor : ℕ} {t : Token} (ht : t ∈ tokenize sql)
    (hword : t.kind.isWord) (hstart : t.start < cursor) (hstop : cursor ≤ t.stop)
    (selectedDatabase : Option String) :
    (resolve sql cursor selectedDatabase).wordStart = t.start ∧
      (resolve sql cursor selectedDatabase).currentWord =
        Focus.wordBefore sql.toList t cursor := by
  have hmin : min cursor (byteLength sql.toList) = cursor :=
    min_eq_left (hstop.trans (stop_le_byteLength ht))
  obtain ⟨focus, hfocus⟩ := Focus.exists_ofCursor? (List.ne_nil_of_mem ht) cursor
  obtain rfl := Focus.token_eq_of_lt ht (by simp [Focus.continues, hword]) hstart hstop hfocus
  rw [← hmin] at hfocus
  obtain ⟨-, hwordStart, hcurrent⟩ := resolve_of_focus hfocus selectedDatabase
  rw [hwordStart, hcurrent, hmin]
  exact ⟨if_pos hword, if_pos hword⟩

end Context

end SqlCompletion
