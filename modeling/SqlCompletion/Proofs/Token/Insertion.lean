import SqlCompletion.Proofs.Token.Classes
import SqlCompletion.Proofs.Token.Locality
import SqlCompletion.Proofs.Token.Rules

/-!
Words written after words: what was read before is read again, with the new words between.

* `IsWord`: the texts that are read as one bare word;
* `scan_word`: a word is read as a whole when no letter, digit or underscore follows it;
* `isWord_of_scan`: an identifier that stands for its own text is a word;
* `written`: lexemes with words after those that end at given places;
* `lexemes_written`: their text is read back as these lexemes.
-/

namespace SqlCompletion

open Text

/-! ### Words -/

/-- A letter or an underscore, with letters, digits and underscores after it. -/
def IsWord : List Char → Prop
  | [] => False
  | c :: rest => opensWord c = true ∧ ∀ d ∈ rest, isWordChar d = true

instance : DecidablePred IsWord
  | [] => inferInstanceAs (Decidable False)
  | c :: rest =>
    decidable_of_iff (opensWord c = true ∧ rest.all isWordChar = true) (by simp [IsWord])

lemma IsWord.isWordChar {cs : List Char} (h : IsWord cs) : ∀ c ∈ cs, isWordChar c = true := by
  cases cs with
  | nil => simp
  | cons c rest =>
      intro d hd
      rcases List.mem_cons.mp hd with rfl | hd
      · exact isWordChar_of_opensWord h.1
      · exact h.2 d hd

lemma ne_of_opensWord {c d : Char} (h : opensWord c = true) (hd : opensWord d = false) :
    c ≠ d := by
  rintro rfl
  simp [hd] at h

lemma isBlank_of_opensWord {c : Char} (h : opensWord c = true) : isBlank c = false := by
  have hne : ∀ d, opensWord d = false → c ≠ d := fun d => ne_of_opensWord h
  simp [isBlank, hne ' ' rfl, hne '\t' rfl, hne '\n' rfl, hne '\x0c' rfl, hne '\r' rfl]

/-- No other rule of the lexer applies to what opens a word. -/
lemma scan_of_opensWord {c : Char} (h : opensWord c = true) (rest : List Char) :
    scan c rest = (.plain (wordKind (c :: (frontRun isWordChar rest).1))
      (c :: (frontRun isWordChar rest).1), (frontRun isWordChar rest).2) := by
  have hne : ∀ d, opensWord d = false → c ≠ d := fun d => ne_of_opensWord h
  have hdigit : c.isDigit = false := by
    by_contra hd
    simp only [opensWord, isAlpha_iff, Bool.or_eq_true, decide_eq_true_eq, isUpper_iff,
      isLower_iff] at h
    rw [Bool.not_eq_false, isDigit_iff] at hd
    rcases h with h | rfl
    · omega
    · simp at hd
  have hpunctuation : punctuation? c = none := by
    simp [punctuation?, hne '.' rfl, hne ',' rfl, hne '(' rfl, hne ')' rfl]
  have hoperator : isOperatorChar c = false := by
    simp [isOperatorChar, hne '=' rfl, hne '<' rfl, hne '>' rfl, hne '!' rfl, hne '+' rfl,
      hne '-' rfl, hne '*' rfl, hne '/' rfl, hne '%' rfl]
  simp [scan, isBlank_of_opensWord h, opensLineComment_cons, opensBlockComment_cons, hne '-' rfl,
    hne '/' rfl, hne '\x27' rfl, hne '\x22' rfl, hne '\x60' rfl, hdigit, hpunctuation, hoperator, h]

/-- A word is read as a whole when nothing that continues it follows. -/
lemma scan_word {c : Char} {rest a : List Char} (h : IsWord (c :: rest))
    (ha : ∀ d ∈ a.head?, isWordChar d = false) :
    scan c (rest ++ a) = (.plain (wordKind (c :: rest)) (c :: rest), a) := by
  have hrun : frontRun isWordChar (rest ++ a) = (rest, a) := frontRun_eq_iff.mpr ⟨rfl, h.2, ha⟩
  rw [scan_of_opensWord h.1, hrun]

lemma length_throughBacktick_le (cs : List Char) :
    (throughBacktick cs).2.1.length ≤ (throughBacktick cs).1.length := by
  fun_induction throughBacktick cs <;> simp_all
  omega

/-- An identifier that stands for its own text, and not for what backticks enclose, is a word that
nothing continues. -/
lemma isWord_of_scan {c : Char} {rest a : List Char} {l : Lexeme} (h : scan c rest = (l, a))
    (hkind : l.kind = .identifier) (hplain : l.text = l.value) :
    l = .plain (wordKind l.text) l.text ∧ IsWord l.text ∧ ∀ d ∈ a.head?, isWordChar d = false := by
  cases reads_of_scan h with
  | word hword =>
      obtain ⟨-, hletters, hend⟩ := frontRun_eq_iff.mp (rfl : frontRun isWordChar rest = (_, _))
      exact ⟨rfl, ⟨hword, hletters⟩, hend⟩
  | name _ =>
      -- what is between backticks is shorter than what it covers
      have hlength := length_throughBacktick_le rest
      have hcovered : (throughBacktick rest).1.length + 1 = (throughBacktick rest).2.1.length :=
        congrArg List.length hplain
      omega
  | mark hmark => exact absurd hkind (kind_ne_of_punctuation? hmark (by decide))
  | _ => cases hkind

/-! ### Lexemes with words written after them -/

namespace Lexeme

/-- A single space. -/
def space : Lexeme :=
  .plain .whitespace [' ']

/-- A bare word. -/
def word (w : String) : Lexeme :=
  .plain (wordKind w.toList) w.toList

end Lexeme

/-- The lexemes by which a word is written after another one. -/
def spaced : Option String → List Lexeme
  | none => []
  | some w => [.space, .word w]

/-- Lexemes with words written after those that end at given byte offsets. The first lexeme begins
at `start`, and the offsets are those of the text without the words. -/
def written (words : ℕ → Option String) (start : ℕ) : List Lexeme → List Lexeme
  | [] => []
  | l :: ls =>
    let stop := start + byteLength l.text
    l :: (spaced (words stop) ++ written words stop ls)

/-- Words are written after bare words only. -/
def IsWritable (words : ℕ → Option String) (start : ℕ) : List Lexeme → Prop
  | [] => True
  | l :: ls =>
    let stop := start + byteLength l.text
    (∀ w, words stop = some w → l.kind = .identifier ∧ l.text = l.value ∧ IsWord w.toList) ∧
      IsWritable words stop ls

/-- An identifier that stands for its own text is a word, wherever it is read. -/
lemma isWord_of_mem_lexemes {cs : List Char} {l : Lexeme} (h : l ∈ lexemes cs)
    (hkind : l.kind = .identifier) (hplain : l.text = l.value) : IsWord l.text := by
  obtain ⟨a, b, hls⟩ := List.append_of_mem h
  have hread : lexemes (covered (l :: b)) = l :: b := by
    refine lexemes_covered_suffix (a := a) ?_
    rw [← hls, covered_lexemes]
  obtain ⟨c, part, -, hscan, -⟩ := exists_scan_of_lexemes hread
  exact (isWord_of_scan hscan hkind hplain).2.1

/-- A space before a word is read as a space, and the word as itself. -/
lemma lexemes_spaced {w : String} {a : List Char} (h : IsWord w.toList)
    (ha : ∀ d ∈ a.head?, isWordChar d = false) :
    lexemes (covered (spaced (some w)) ++ a) = spaced (some w) ++ lexemes a := by
  have hcovered : covered (spaced (some w)) ++ a = ' ' :: (w.toList ++ a) := by
    simp [spaced, Lexeme.space, Lexeme.word, Lexeme.plain, covered]
  rw [hcovered, spaced, Lexeme.word]
  cases hw : w.toList with
  | nil => simp [hw, IsWord] at h
  | cons c rest =>
      rw [hw] at h
      have hspace : scan ' ' (c :: (rest ++ a)) = (.space, c :: (rest ++ a)) := by
        have hblank : isBlank ' ' = true := rfl
        simp [scan, hblank, frontRun_cons, isBlank_of_opensWord h.1, Lexeme.space]
      rw [List.cons_append, lexemes, hspace, lexemes, scan_word h ha]
      rfl

/-- With words written after bare words, the text is read as before, with the words between. -/
lemma lexemes_written {words : ℕ → Option String} {start : ℕ} {ls : List Lexeme}
    (h : lexemes (covered ls) = ls) (hwords : IsWritable words start ls) :
    lexemes (covered (written words start ls)) = written words start ls ∧
      BeginsAlike (covered ls) (covered (written words start ls)) := by
  induction ls generalizing start with
  | nil => exact ⟨h, .refl _⟩
  | cons l ls ih =>
      obtain ⟨c, part, htext, hscan, hls⟩ := exists_scan_of_lexemes h
      obtain ⟨hafter, hwords⟩ := hwords
      obtain ⟨hread, halike⟩ := ih hls hwords
      rw [written]
      generalize start + byteLength l.text = stop at hafter hread halike ⊢
      cases hword : words stop with
      | none =>
          simp only [spaced, List.nil_append, covered_cons]
          refine ⟨?_, halike.append_left l.text⟩
          rw [htext, List.cons_append, lexemes, scan_of_beginsAlike halike hscan, hread]
      | some w =>
          obtain ⟨hkind, hplain, hw⟩ := hafter w hword
          obtain ⟨hl, hlword, hend⟩ := isWord_of_scan hscan hkind hplain
          simp only [covered_cons, covered_append]
          rw [htext] at hl hlword ⊢
          constructor
          · have hspace :
                ∀ d ∈ (covered (spaced (some w)) ++ covered (written words stop ls)).head?,
                  isWordChar d = false := by
              simp [spaced, Lexeme.space, Lexeme.plain, isWordChar]
            rw [List.cons_append, lexemes, scan_word hlword hspace, ← hl,
              lexemes_spaced hw (by rw [← halike.head]; exact hend), hread]
          · exact .of_cons (ne_of_opensWord hlword.1 rfl) (ne_of_opensWord hlword.1 rfl) _ _

end SqlCompletion
