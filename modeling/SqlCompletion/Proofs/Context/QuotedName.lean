import SqlCompletion.Proofs.Context.Word
import SqlCompletion.Proofs.Token.Quoting

/-!
The word being typed when the cursor is in a name between backticks.

* `exists_front_of_isQuoted`: the part of such a name up to the cursor is again a name that a
  backtick opens;
* `Context.currentWord_iff`: the word is the name itself at its end, and the text after the first
  backtick before that; it is what the part up to the cursor is read as unless there is another
  backtick in this text;
* `Context.currentWord_doubled`: two backticks that stand for one.
-/

namespace SqlCompletion

open Text

variable {sql : String} {t : Token} {cursor : ℕ}

/-- The part of a quoted name up to a cursor in it is a backtick, and a text that is read as one
name to its end. -/
lemma exists_front_of_isQuoted (ht : t ∈ tokenize sql) (hquoted : t.IsQuoted sql)
    (hcursor : IsBoundary sql.toList cursor) (hstart : t.start < cursor) (hstop : cursor ≤ t.stop) :
    ∃ part name, slice? sql.toList t.start cursor = some ('\x60' :: part) ∧
      cursor = t.start + byteLength ('\x60' :: part) ∧ throughBacktick part = (part, name, []) ∧
      (part = doubled name ∨ part = doubled name ++ ['\x60']) ∧
      (cursor = t.stop → t.value = String.ofList name) := by
  obtain ⟨before, p, q, after, l, hsql, htext, rfl, hp, hlast, c, inside, hcons, hscan⟩ :=
    exists_cut_of_tokenize ht hcursor hstart.le hstop
  cases p with
  | nil => exact absurd hp hstart.ne'
  | cons d part =>
      rw [List.cons_append] at htext
      obtain ⟨rfl, rfl⟩ := List.cons.inj (hcons.symm.trans htext)
      obtain rfl : c = '\x60' := by
        have hopen := hquoted.2
        rw [hsql, Lexeme.placedAt, htext, ← List.append_assoc (c :: part), ← List.cons_append,
          slice?_append] at hopen
        exact Option.some.inj hopen
      have hslice := slice?_append before ('\x60' :: part) (q ++ after)
      rw [← hsql] at hslice
      rw [scan_backtick, List.append_assoc] at hscan
      obtain ⟨rfl, -⟩ := Prod.mk.inj hscan
      have hcovered : (throughBacktick (part ++ (q ++ after))).1 = part ++ q :=
        (List.cons.inj hcons).2
      obtain ⟨name, hread, hname⟩ := exists_throughBacktick_front (hcovered ▸ List.prefix_append ..)
      refine ⟨part, name, ?_, hp, hread, hname, fun hend => ?_⟩
      · rw [hp]
        exact hslice
      · -- nothing of the name is left, so that its front is all of it
        have hq := hlast hend.ge
        rw [hq, List.append_nil, List.nil_append] at hcovered
        have hcut := throughBacktick_cut hcovered
        rw [hread] at hcut
        rw [Lexeme.placedAt, hq, List.nil_append, (Prod.mk.inj (Prod.mk.inj hcut).2).1]

/-- A text that is a backtick and a name to its end is one token. -/
lemma tokenize_front {part name : List Char} (h : throughBacktick part = (part, name, [])) :
    tokenize (String.ofList ('\x60' :: part)) =
      [⟨.identifier, String.ofList name, 0, byteLength ('\x60' :: part)⟩] := by
  rw [tokenize, String.toList_ofList, lexemes, scan_backtick, h, lexemes, placeLexemes_cons,
    placeLexemes, Lexeme.placedAt, Nat.zero_add]

/-- Up to a cursor in it, the text of a quoted name after its first backtick. -/
lemma Focus.wordBefore_quoted {part : List Char}
    (hslice : slice? sql.toList t.start cursor = some ('\x60' :: part)) :
    wordBefore sql.toList t cursor =
      if t.stop ≤ cursor then t.value else String.ofList part := by
  rw [wordBefore, hslice]
  rfl

namespace Context

/-- **The word in a quoted name.** Up to a cursor in a name between backticks, or at its end, the
query has a backtick and some text, which alone is read as one name. The word being typed is the
name itself at its end, and this text before that. So it is what the text is read as at the end of
the name, and elsewhere as long as no further backtick is in the text. -/
theorem currentWord_iff (ht : t ∈ tokenize sql) (hquoted : t.IsQuoted sql)
    (hcursor : IsBoundary sql.toList cursor) (hstart : t.start < cursor) (hstop : cursor ≤ t.stop)
    (selectedDatabase : Option String) :
    ∃ part name, slice? sql.toList t.start cursor = some ('\x60' :: part) ∧
      tokenize (String.ofList ('\x60' :: part)) = [⟨.identifier, name, 0, cursor - t.start⟩] ∧
      (resolve sql cursor selectedDatabase).currentWord =
        (if cursor = t.stop then t.value else String.ofList part) ∧
      ((resolve sql cursor selectedDatabase).currentWord = name ↔
        cursor = t.stop ∨ '\x60' ∉ part) := by
  obtain ⟨part, name, hslice, hlength, hread, hname, hend⟩ :=
    exists_front_of_isQuoted ht hquoted hcursor hstart hstop
  have hword : (resolve sql cursor selectedDatabase).currentWord =
      if cursor = t.stop then t.value else String.ofList part := by
    rw [(resolve_of_isWord ht (by rw [hquoted.1]; rfl) hstart hstop _).2,
      Focus.wordBefore_quoted hslice]
    simp only [hstop.ge_iff_eq]
  refine ⟨part, String.ofList name, hslice, ?_, hword, ?_⟩
  · rw [tokenize_front hread, hlength, Nat.add_sub_cancel_left]
  · rw [hword]
    split_ifs with hlast
    · exact iff_of_true (hend hlast) (.inl hlast)
    · rw [String.ofList_inj, eq_name_iff hname]
      exact (or_iff_right hlast).symm

/-- After a letter of two bytes. -/
theorem currentWord_iff_accent :
    ⟨.identifier, "é\x60b", 7, 14⟩ ∈ tokenize "SELECT \x60é\x60\x60b\x60" ∧
      Token.IsQuoted "SELECT \x60é\x60\x60b\x60" ⟨.identifier, "é\x60b", 7, 14⟩ ∧
      IsBoundary "SELECT \x60é\x60\x60b\x60".toList 10 ∧
      ∃ part name, slice? "SELECT \x60é\x60\x60b\x60".toList 7 10 = some ('\x60' :: part) ∧
        tokenize (String.ofList ('\x60' :: part)) = [⟨.identifier, name, 0, 3⟩] ∧
        (resolve "SELECT \x60é\x60\x60b\x60" 10 none).currentWord = String.ofList part ∧
        ((resolve "SELECT \x60é\x60\x60b\x60" 10 none).currentWord = name ↔
          10 = 14 ∨ '\x60' ∉ part) := by
  have hmem : ⟨.identifier, "é\x60b", 7, 14⟩ ∈ tokenize "SELECT \x60é\x60\x60b\x60" := by
    decide +kernel
  have hquoted : Token.IsQuoted "SELECT \x60é\x60\x60b\x60" ⟨.identifier, "é\x60b", 7, 14⟩ := by
    decide +kernel
  have hcursor : IsBoundary "SELECT \x60é\x60\x60b\x60".toList 10 := by decide +kernel
  exact ⟨hmem, hquoted, hcursor,
    currentWord_iff hmem hquoted hcursor (by decide) (by decide) none⟩

/-- Behind two backticks that stand for one, the word has both of them. -/
theorem currentWord_doubled :
    ∃ t ∈ tokenize "\x60a\x60\x60b\x60", t.IsQuoted "\x60a\x60\x60b\x60" ∧
      IsBoundary "\x60a\x60\x60b\x60".toList 4 ∧ t.start < 4 ∧ 4 ≤ t.stop ∧
      slice? "\x60a\x60\x60b\x60".toList t.start 4 = some "\x60a\x60\x60".toList ∧
      tokenize "\x60a\x60\x60" = [⟨.identifier, "a\x60", 0, 4⟩] ∧
      (resolve "\x60a\x60\x60b\x60" 4 none).currentWord = "a\x60\x60" := by
  decide +kernel

end Context

end SqlCompletion
