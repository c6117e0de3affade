import Mathlib.Tactic
import SqlCompletion.Token.Lexer

/-!
The rules by which a lexeme is read.

* `Reads`: one rule for each kind of lexeme, with what makes it apply;
* `reads_of_scan`: every lexeme is read by one of them;
* `value_eq_text_of_scan`, `text_of_dot`, `opens_of_comment`, `opens_of_operator`: what the kind of
  a lexeme says about its text.
-/

namespace SqlCompletion

open Text

/-- The rules by which the first lexeme of a text is read, and the rest of the text left. -/
inductive Reads (c : Char) (rest : List Char) : Lexeme → List Char → Prop
  | blanks (h : isBlank c = true) :
      Reads c rest (.plain .whitespace (c :: (frontRun isBlank rest).1)) (frontRun isBlank rest).2
  | line (h : opensLineComment (c :: rest) = true) :
      Reads c rest (.plain .comment (c :: (frontRun (· ≠ '\n') rest).1))
        (frontRun (· ≠ '\n') rest).2
  | block (h : opensBlockComment (c :: rest) = true) :
      Reads c rest (.plain .comment (c :: '*' :: (throughBlockEnd rest.tail).1))
        (throughBlockEnd rest.tail).2
  | literal (h : c = '\x27' ∨ c = '\x22') :
      Reads c rest (.plain .string (c :: (throughQuote c rest).1)) (throughQuote c rest).2
  | name (h : c = '\x60') :
      Reads c rest ⟨.identifier, c :: (throughBacktick rest).1, (throughBacktick rest).2.1⟩
        (throughBacktick rest).2.2
  | number (h : c.isDigit = true) :
      Reads c rest (.plain .number (c :: (frontRun isNumberChar rest).1))
        (frontRun isNumberChar rest).2
  | mark {kind : TokenKind} (h : punctuation? c = some kind) :
      Reads c rest (.plain kind [c]) rest
  | operator (h : isOperatorChar c = true) (hline : opensLineComment (c :: rest) = false)
      (hblock : opensBlockComment (c :: rest) = false) :
      Reads c rest (.plain .operator (c :: (operatorRun rest).1)) (operatorRun rest).2
  | word (h : opensWord c = true) :
      Reads c rest (.plain (wordKind (c :: (frontRun isWordChar rest).1))
        (c :: (frontRun isWordChar rest).1)) (frontRun isWordChar rest).2
  | other : Reads c rest (.plain .unknown [c]) rest

variable {c : Char} {rest a : List Char} {l : Lexeme}

/-- Every lexeme is read by one of the rules. -/
lemma reads_of_scan (h : scan c rest = (l, a)) : Reads c rest l a := by
  rw [scan] at h
  split at h
  · cases h
    exact .blanks ‹_›
  split at h
  · cases h
    exact .line ‹_›
  split at h
  · cases h
    exact .block ‹_›
  split at h
  · rename_i hquote
    cases h
    exact .literal (by simpa using hquote)
  split at h
  · cases h
    exact .name ‹_›
  split at h
  · cases h
    exact .number ‹_›
  split at h
  · rename_i hkind
    cases h
    exact .mark hkind
  split at h
  · rename_i hline hblock _ _ _ _ _ hoperator
    cases h
    exact .operator hoperator (by simpa using hline) (by simpa using hblock)
  split at h
  · cases h
    exact .word ‹_›
  · cases h
    exact .other

/-! ### What the kind of a lexeme says -/

lemma isWord_wordKind (word : List Char) : (wordKind word).isWord = true := by
  rw [wordKind]
  split <;> rfl

lemma wordKind_ne_of_isWord {kind : TokenKind} (h : kind.isWord = false) (word : List Char) :
    wordKind word ≠ kind := by
  rintro rfl
  rw [isWord_wordKind] at h
  cases h

lemma wordKind_cases (word : List Char) :
    wordKind word = .identifier ∨ ∃ k, wordKind word = .keyword k := by
  rw [wordKind]
  split
  · exact .inr ⟨_, rfl⟩
  · exact .inl rfl

/-- A word is a keyword if it is spelled like it in upper case. -/
lemma wordKind_eq_keyword_iff {word : List Char} {k : Keyword} :
    wordKind word = .keyword k ↔ upperAscii word = k.spelling := by
  constructor
  · intro h
    rw [wordKind] at h
    split at h
    · rename_i k' hfind
      obtain rfl : k' = k := by simpa using h
      have hspelling : k'.spelling = upperAscii word := by simpa using List.find?_some hfind
      exact hspelling.symm
    · cases h
  · intro h
    rw [wordKind, h, Keyword.ofUpper?_spelling]

/-- It is an identifier if no keyword is spelled like it. -/
lemma wordKind_eq_identifier_iff_forall {word : List Char} :
    wordKind word = .identifier ↔ ∀ k : Keyword, upperAscii word ≠ k.spelling := by
  constructor
  · intro h k hk
    rw [wordKind_eq_keyword_iff.mpr hk] at h
    cases h
  · intro h
    refine (wordKind_cases word).resolve_right ?_
    rintro ⟨k, hk⟩
    exact h k (wordKind_eq_keyword_iff.mp hk)

/-- The marks that are lexemes by themselves. -/
lemma kind_of_punctuation? {kind : TokenKind} (h : punctuation? c = some kind) :
    kind = .dot ∨ kind = .comma ∨ kind = .parenOpen ∨ kind = .parenClose := by
  rw [punctuation?] at h
  split_ifs at h <;> cases h <;> simp

lemma kind_ne_of_punctuation? {kind other : TokenKind} (h : punctuation? c = some kind)
    (hother : other ∉ [.dot, .comma, .parenOpen, .parenClose]) : kind ≠ other := by
  rintro rfl
  exact hother (by simpa using kind_of_punctuation? h)

/-- A lexeme stands for the text it covers, unless it is a name that a backtick opens. -/
lemma value_eq_text_of_scan (h : scan c rest = (l, a)) :
    l.kind = .identifier ∧ c = '\x60' ∨ l.value = l.text := by
  cases reads_of_scan h with
  | name htick => exact .inl ⟨rfl, htick⟩
  | _ => exact .inr rfl

lemma kind_eq_dot_iff (h : scan c rest = (l, a)) : l.kind = .dot ↔ c = '.' := by
  constructor
  · intro hkind
    cases reads_of_scan h with
    | mark hmark =>
        obtain rfl := hkind
        by_contra hdot
        rw [punctuation?, if_neg hdot] at hmark
        split_ifs at hmark <;> cases hmark
    | word _ => exact absurd hkind (wordKind_ne_of_isWord rfl _)
    | _ => cases hkind
  · rintro rfl
    obtain ⟨rfl, -⟩ := Prod.mk.inj h
    rfl

/-- A dot is a lexeme by itself. -/
lemma text_of_dot (h : scan c rest = (l, a)) (hkind : l.kind = .dot) : l.text = [c] := by
  cases reads_of_scan h with
  | mark _ => rfl
  | word _ => exact absurd hkind (wordKind_ne_of_isWord rfl _)
  | _ => cases hkind

/-- What is read as a comment opens one. -/
lemma opens_of_comment (h : scan c rest = (l, a)) (hkind : l.kind = .comment) :
    opensLineComment (c :: rest) = true ∨ opensBlockComment (c :: rest) = true := by
  cases reads_of_scan h with
  | line hline => exact .inl hline
  | block hblock => exact .inr hblock
  | mark hmark => exact absurd hkind (kind_ne_of_punctuation? hmark (by decide))
  | word _ => exact absurd hkind (wordKind_ne_of_isWord rfl _)
  | _ => cases hkind

/-- An operator begins with an operator character that opens no comment. -/
lemma opens_of_operator (h : scan c rest = (l, a)) (hkind : l.kind = .operator) :
    isOperatorChar c = true ∧ opensLineComment (c :: rest) = false ∧
      opensBlockComment (c :: rest) = false := by
  cases reads_of_scan h with
  | operator hoperator hline hblock => exact ⟨hoperator, hline, hblock⟩
  | mark hmark => exact absurd hkind (kind_ne_of_punctuation? hmark (by decide))
  | word _ => exact absurd hkind (wordKind_ne_of_isWord rfl _)
  | _ => cases hkind

/-- An operator character that opens no comment begins an operator. -/
lemma scan_of_operatorChar (hc : isOperatorChar c = true)
    (hline : opensLineComment (c :: rest) = false)
    (hblock : opensBlockComment (c :: rest) = false) :
    scan c rest = (.plain .operator (c :: (operatorRun rest).1), (operatorRun rest).2) := by
  rw [scan, hline, hblock]
  simp only [isOperatorChar, Bool.or_eq_true, decide_eq_true_eq] at hc
  rcases hc with (((((((rfl | rfl) | rfl) | rfl) | rfl) | rfl) | rfl) | rfl) | rfl <;> rfl

end SqlCompletion
