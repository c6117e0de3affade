import SqlCompletion.Proofs.Context.Word
import SqlCompletion.Proofs.Editor.Position
import SqlCompletion.Proofs.Token.Insertion
import SqlCompletion.Proofs.Token.Quoting
import SqlCompletion.Proofs.Usage.Attribution

/-!
The range that a suggestion replaces: the word being typed.

* `IsOnQuoted`: the cursor is on a name between backticks;
* `Context.exists_typed`: anywhere else the word is the text from its start to the cursor, and a
  part of one word of the query;
* `Completer.range_complete`: the range that a completion shows covers this text, within one line.
-/

namespace SqlCompletion

open Text

/-- The token of the cursor is a name between backticks. -/
def IsOnQuoted (sql : String) (place : ℕ) : Prop :=
  ∃ focus ∈ Focus.ofCursor? (tokenize sql) place, focus.token.IsQuoted sql

instance (sql : String) (place : ℕ) : Decidable (IsOnQuoted sql place) :=
  decidable_of_iff (((Focus.ofCursor? (tokenize sql) place).any fun focus =>
    decide (focus.token.IsQuoted sql)) = true) (by simp [IsOnQuoted, Option.any_eq_true])

/-- What is read as a word, and is no name that a backtick opens, is a word that stands for
itself. -/
lemma isWord_of_scan_isWord {c : Char} {rest a : List Char} {l : Lexeme}
    (h : scan c rest = (l, a)) (hword : l.kind.isWord) (hopen : c ≠ '\x60') :
    IsWord l.text ∧ l.value = l.text := by
  cases reads_of_scan h with
  | word hc => exact ⟨⟨hc, fun d => List.mem_takeWhile_imp⟩, rfl⟩
  | name htick => exact absurd htick hopen
  | mark hmark => rcases kind_of_punctuation? hmark with rfl | rfl | rfl | rfl <;> cases hword
  | _ => cases hword

section Words

variable {sql : String} {t : Token} {cursor : ℕ}

/-- A bare word up to a cursor in it, at its start or at its end. -/
lemma exists_front_of_isWord (ht : t ∈ tokenize sql) (hword : t.kind.isWord)
    (hplain : ¬t.IsQuoted sql) (hcursor : IsBoundary sql.toList cursor) (hstart : t.start ≤ cursor)
    (hstop : cursor ≤ t.stop) :
    ∃ before part rest, sql.toList = before ++ (part ++ rest) ∧ byteLength before = t.start ∧
      cursor = t.start + byteLength part ∧ (∀ c ∈ part, isWordChar c = true) ∧
      Focus.wordBefore sql.toList t cursor = String.ofList part := by
  obtain ⟨before, part, q, after, l, hsql, htext, rfl, hlength, hlast, c, inside, hcons, hscan⟩ :=
    exists_cut_of_tokenize ht hcursor hstart hstop
  have hopen : c ≠ '\x60' := by
    rintro rfl
    have hkind : l.kind = .identifier := by
      rw [scan_backtick] at hscan
      rw [← (Prod.mk.inj hscan).1]
    refine hplain ⟨hkind, ?_⟩
    rw [hsql, ← List.append_assoc part, ← htext, Lexeme.placedAt, slice?_append, hcons]
    rfl
  obtain ⟨hletters, hvalue⟩ := isWord_of_scan_isWord hscan hword hopen
  have hpart : ∀ d ∈ part, isWordChar d = true := fun d hd =>
    hletters.isWordChar d (by rw [htext]; exact List.mem_append_left q hd)
  refine ⟨before, part, q ++ after, hsql, rfl, hlength, hpart, ?_⟩
  rw [Focus.wordBefore]
  split_ifs with hend
  · -- all of the word is before the cursor
    rw [Lexeme.placedAt, hvalue, htext, hlast hend, List.append_nil]
  · have hslice : slice? sql.toList (l.placedAt (byteLength before)).start cursor = some part := by
      rw [hsql, hlength]
      exact slice?_append before part (q ++ after)
    rw [hslice, Option.getD_some]
    split
    · have hnot := hpart '\x60' List.mem_cons_self
      cases hnot
    · rfl

end Words

namespace Context

/-- Where the cursor is on no name between backticks, the word being typed is the text from its
start to the cursor, made of letters, digits and underscores, and it lies in one word of the query
if it is not empty. -/
lemma exists_typed {sql : String} {cursor : ℕ}
    (hcursor : IsBoundary sql.toList (min cursor (byteLength sql.toList)))
    (hplain : ¬IsOnQuoted sql (min cursor (byteLength sql.toList)))
    (selectedDatabase : Option String) :
    ∃ before part rest, sql.toList = before ++ (part ++ rest) ∧
      (resolve sql cursor selectedDatabase).wordStart = byteLength before ∧
      min cursor (byteLength sql.toList) = byteLength before + byteLength part ∧
      (∀ c ∈ part, isWordChar c = true) ∧
      (resolve sql cursor selectedDatabase).currentWord = String.ofList part ∧
      (part ≠ [] → ∃ t ∈ tokenize sql, t.kind.isWord ∧ t.start = byteLength before ∧
        min cursor (byteLength sql.toList) ≤ t.stop) := by
  have hle : min cursor (byteLength sql.toList) ≤ byteLength sql.toList := min_le_right _ _
  rcases word_resolve sql cursor selectedDatabase with
    ⟨focus, hfocus, hword, hstart, hcurrent⟩ | ⟨hstart, hcurrent⟩
  · have hmem := Focus.token_mem_of_ofCursor? hfocus
    have hstop := (Focus.stands_of_ofCursor? hle hfocus).le_stop
    obtain ⟨before, part, rest, hsql, hbefore, hlength, hpart, htyped⟩ :=
      exists_front_of_isWord hmem hword (fun hquoted => hplain ⟨focus, hfocus, hquoted⟩) hcursor
        (Focus.start_le_of_ofCursor? hfocus) hstop
    refine ⟨before, part, rest, hsql, hstart.trans hbefore.symm, by rw [hbefore, hlength], hpart,
      hcurrent.trans htyped, fun _ => ⟨focus.token, hmem, hword, hbefore.symm, hstop⟩⟩
  · obtain ⟨before, rest, hsql, hlength⟩ := hcursor.exists_split
    exact ⟨before, [], rest, hsql, hstart.trans hlength.symm, hlength.symm, by simp, hcurrent,
      by simp⟩

end Context

namespace Completer

variable {σ : Type}

/-- **The range of a completion covers the word being typed.** A completion shows the context of the
cursor, and the range from the start of the word, which is no later than the cursor, to the cursor,
where a cursor past the end counts as one at the end. If the cursor is between two characters and on
no name between backticks, then the text of this range is the word; it lies in one word of the query
if it is not empty; and in a query of fewer than `2 ^ 32 - 1` bytes the range begins and ends on one
line, with as many columns between as the word has characters. -/
theorem range_complete (source : Source) (sql : String) (cursor : ℕ)
    (selectedDatabase : Option String) (now : Int64) (completer : Completer σ) :
    let place := min cursor (byteLength sql.toList)
    let context := Context.resolve sql cursor selectedDatabase
    let shown := (completer.complete source sql cursor selectedDatabase now).1
    shown.context = context ∧ shown.range = .ofOffsets sql.toList context.wordStart place ∧
      context.wordStart ≤ place ∧
      (IsBoundary sql.toList place → ¬IsOnQuoted sql place →
        slice? sql.toList context.wordStart place = some context.currentWord.toList ∧
        (context.currentWord ≠ "" → ∃ t ∈ tokenize sql, t.kind.isWord ∧
          t.start ≤ context.wordStart ∧ place ≤ t.stop) ∧
        (byteLength sql.toList < UInt32.size - 1 →
          shown.range.first.line = shown.range.last.line ∧
          shown.range.last.column.toNat =
            shown.range.first.column.toNat + context.currentWord.length)) := by
  intro place context shown
  obtain ⟨hcontext, hrange, -⟩ :
      shown.context = context ∧
        shown.range = .ofOffsets sql.toList shown.context.wordStart place ∧ _ :=
    complete_spec Prod.mk.eta.symm
  rw [hcontext] at hrange
  refine ⟨hcontext, hrange, Context.wordStart_le sql cursor selectedDatabase,
    fun hcursor hplain => ?_⟩
  obtain ⟨before, part, rest, hsql, hstart, hplace, hpart, hword, htoken⟩ :
      ∃ before part rest, sql.toList = before ++ (part ++ rest) ∧
        context.wordStart = byteLength before ∧ place = byteLength before + byteLength part ∧
        (∀ c ∈ part, isWordChar c = true) ∧ context.currentWord = String.ofList part ∧
        (part ≠ [] → ∃ t ∈ tokenize sql, t.kind.isWord ∧ t.start = byteLength before ∧
          place ≤ t.stop) :=
    Context.exists_typed hcursor hplain selectedDatabase
  clear_value shown context place
  rw [hstart, hplace, hsql] at hrange
  rw [hstart, hplace, hword, hrange, hsql, String.toList_ofList, String.length_ofList]
  refine ⟨slice?_append before part rest, fun hne => ?_, fun hsize => ?_⟩
  · obtain ⟨t, ht, hisWord, hbegins, hends⟩ := htoken (by simpa using hne)
    exact ⟨t, ht, hisWord, hbegins.le, hplace ▸ hends⟩
  · have hline : '\n' ∉ part := fun hmem => by cases hpart '\n' hmem
    exact Range.ofOffsets_append hline hsize

/-- In a word of the second line, behind a letter of two bytes in the first. -/
theorem range_complete_second_line :
    let sql := "SELECT 'é'\n  FROM us"
    let shown := (fresh.complete (.serving {} [] []) sql 16 none 0).1
    IsBoundary sql.toList 16 ∧ ¬IsOnQuoted sql 16 ∧ byteLength sql.toList < UInt32.size - 1 ∧
      shown.context.wordStart = 14 ∧ shown.context.currentWord = "FR" ∧
      slice? sql.toList 14 16 = some "FR".toList ∧
      (∃ t ∈ tokenize sql, t.kind.isWord ∧ t.start ≤ 14 ∧ 16 ≤ t.stop) ∧
      shown.range.first.line = shown.range.last.line ∧
      shown.range.last.column.toNat = shown.range.first.column.toNat + 2 := by
  intro sql shown
  have hplace : min 16 (byteLength sql.toList) = 16 := by decide +kernel
  have hcursor : IsBoundary sql.toList 16 := by decide +kernel
  have hplain : ¬IsOnQuoted sql 16 := by decide +kernel
  have hsize : byteLength sql.toList < UInt32.size - 1 := by decide +kernel
  have hstart : (Context.resolve sql 16 none).wordStart = 14 := by decide +kernel
  have hword : (Context.resolve sql 16 none).currentWord = "FR" := by decide +kernel
  have hcomplete := range_complete (.serving {} [] []) sql 16 none 0 fresh
  simp only [hplace, hstart, hword] at hcomplete
  obtain ⟨hcontext, -, -, hrange⟩ := hcomplete
  obtain ⟨hslice, htoken, hcolumns⟩ := hrange hcursor hplain
  rw [show shown.context = _ from hcontext]
  exact ⟨hcursor, hplain, hsize, hstart, hword, hslice, htoken (by decide), hcolumns hsize⟩

end Completer

end SqlCompletion
