import SqlCompletion.Proofs.TableReference.Renaming
import SqlCompletion.Proofs.Text.CaseFolding
import SqlCompletion.Proofs.Token.Locality

/-!
The division of a query does not depend on the case of its letters.

* `Lexeme.folded`: a lexeme without the case of its ASCII letters;
* `scan_map_toLower`: the first lexeme of a folded text is that of the text, folded;
* `tokenize_folded`: the tokens of a folded query are those of the query, with folded names.
-/

namespace SqlCompletion

open Text

/-! ### Classes of characters -/

/-- The classes to which a character belongs. -/
def classes (c : Char) : Bool × Bool × Bool × Bool × Bool × Bool :=
  (isBlank c, c.isDigit, isNumberChar c, isOperatorChar c, opensWord c, isWordChar c)

lemma classes_toLower (c : Char) : classes c.toLower = classes c :=
  eq_toLower_of_capitals (by decide +kernel) c

@[simp] lemma isBlank_toLower (c : Char) : isBlank c.toLower = isBlank c :=
  congrArg (·.1) (classes_toLower c)

@[simp] lemma isDigit_toLower (c : Char) : c.toLower.isDigit = c.isDigit :=
  congrArg (·.2.1) (classes_toLower c)

@[simp] lemma isNumberChar_toLower (c : Char) : isNumberChar c.toLower = isNumberChar c :=
  congrArg (·.2.2.1) (classes_toLower c)

@[simp] lemma isOperatorChar_toLower (c : Char) : isOperatorChar c.toLower = isOperatorChar c :=
  congrArg (·.2.2.2.1) (classes_toLower c)

@[simp] lemma opensWord_toLower (c : Char) : opensWord c.toLower = opensWord c :=
  congrArg (·.2.2.2.2.1) (classes_toLower c)

@[simp] lemma isWordChar_toLower (c : Char) : isWordChar c.toLower = isWordChar c :=
  congrArg (·.2.2.2.2.2) (classes_toLower c)

@[simp] lemma punctuation?_toLower (c : Char) : punctuation? c.toLower = punctuation? c :=
  eq_toLower_of_capitals (by decide +kernel) c

@[simp] lemma wordKind_map_toLower (word : List Char) :
    wordKind (word.map Char.toLower) = wordKind word := by
  rw [wordKind, wordKind, upperAscii_map_toLower]

/-! ### Runs -/

lemma opensLineComment_map_toLower (cs : List Char) :
    opensLineComment (cs.map Char.toLower) = opensLineComment cs := by
  cases cs with
  | nil => rfl
  | cons c cs =>
      rw [List.map_cons, opensLineComment_cons, opensLineComment_cons]
      simp (disch := decide) only [toLower_eq_iff, head?_map_toLower]

lemma opensBlockComment_map_toLower (cs : List Char) :
    opensBlockComment (cs.map Char.toLower) = opensBlockComment cs := by
  cases cs with
  | nil => rfl
  | cons c cs =>
      rw [List.map_cons, opensBlockComment_cons, opensBlockComment_cons]
      simp (disch := decide) only [toLower_eq_iff, head?_map_toLower]

lemma frontRun_map_toLower {p : Char → Bool} (hp : ∀ c, p c.toLower = p c) (cs : List Char) :
    frontRun p (cs.map Char.toLower) =
      ((frontRun p cs).1.map Char.toLower, (frontRun p cs).2.map Char.toLower) := by
  have hsame : p ∘ Char.toLower = p := funext hp
  rw [frontRun, List.takeWhile_map, List.dropWhile_map, hsame, frontRun]

lemma operatorRun_map_toLower (cs : List Char) :
    operatorRun (cs.map Char.toLower) =
      ((operatorRun cs).1.map Char.toLower, (operatorRun cs).2.map Char.toLower) := by
  induction cs with
  | nil => rfl
  | cons c cs ih =>
      rw [List.map_cons, operatorRun_cons, operatorRun_cons, ← List.map_cons,
        opensLineComment_map_toLower, opensBlockComment_map_toLower, isOperatorChar_toLower, ih]
      split_ifs <;> rfl

lemma throughBlockEnd_map_toLower (cs : List Char) :
    throughBlockEnd (cs.map Char.toLower) =
      ((throughBlockEnd cs).1.map Char.toLower, (throughBlockEnd cs).2.map Char.toLower) := by
  induction cs with
  | nil => rfl
  | cons c cs ih =>
      rw [List.map_cons, throughBlockEnd_cons, throughBlockEnd_cons, ih]
      simp (disch := decide) only [toLower_eq_iff, head?_map_toLower]
      split_ifs
      · rw [List.map_tail]
        rfl
      · rfl

lemma throughQuote_map_toLower {quote : Char} (hquote : quote.isAlpha = false) (cs : List Char) :
    throughQuote quote (cs.map Char.toLower) =
      ((throughQuote quote cs).1.map Char.toLower, (throughQuote quote cs).2.map Char.toLower) := by
  induction cs using List.twoStepInduction with
  | nil => rfl
  | singleton c =>
      rw [List.map_singleton, throughQuote_cons, throughQuote_cons]
      simp (disch := decide) only [toLower_eq_iff, toLower_eq_iff hquote]
      split_ifs <;> rfl
  | cons_cons c d cs ih ih' =>
      rw [List.map_cons, throughQuote_cons, throughQuote_cons, ih' d]
      simp (disch := decide) only [toLower_eq_iff, toLower_eq_iff hquote, List.map_cons, ih]
      split_ifs <;> rfl

lemma throughBacktick_map_toLower (cs : List Char) :
    throughBacktick (cs.map Char.toLower) =
      ((throughBacktick cs).1.map Char.toLower, (throughBacktick cs).2.1.map Char.toLower,
        (throughBacktick cs).2.2.map Char.toLower) := by
  induction cs using List.twoStepInduction with
  | nil => rfl
  | singleton c =>
      rw [List.map_singleton, throughBacktick_cons, throughBacktick_cons]
      simp (disch := decide) only [toLower_eq_iff]
      split_ifs <;> rfl
  | cons_cons c d cs ih ih' =>
      rw [List.map_cons, throughBacktick_cons, throughBacktick_cons, ih' d]
      simp (disch := decide) only [toLower_eq_iff, List.map_cons, List.head?_cons,
        Option.some.injEq, List.tail_cons, ih]
      split_ifs <;> rfl

/-! ### Lexemes and tokens -/

/-- The lexeme without the case of its ASCII letters. -/
def Lexeme.folded (l : Lexeme) : Lexeme :=
  ⟨l.kind, l.text.map Char.toLower, l.value.map Char.toLower⟩

/-- The first lexeme of a folded text is that of the text, folded. -/
lemma scan_map_toLower (c : Char) (rest : List Char) :
    scan c.toLower (rest.map Char.toLower) =
      ((scan c rest).1.folded, (scan c rest).2.map Char.toLower) := by
  rcases hkind : punctuation? c with _ | kind
  case some =>
      rw [scan_of_punctuation? hkind, scan_of_punctuation? (by rw [punctuation?_toLower, hkind])]
      rfl
  have hline := opensLineComment_map_toLower (c :: rest)
  have hblock := opensBlockComment_map_toLower (c :: rest)
  rw [List.map_cons] at hline hblock
  rw [scan, scan, hline, hblock]
  simp (disch := decide) only [isBlank_toLower, toLower_eq_iff, isDigit_toLower,
    punctuation?_toLower, hkind, isOperatorChar_toLower, opensWord_toLower]
  split_ifs with hblank hcomment hopens hquote hbacktick hdigit hoperator hword
  · rw [frontRun_map_toLower isBlank_toLower]
    rfl
  · have hnewline : ∀ c : Char, decide (c.toLower ≠ '\n') = decide (c ≠ '\n') := fun c => by
      simp (disch := decide) only [ne_eq, toLower_eq_iff]
    rw [frontRun_map_toLower hnewline]
    rfl
  · rw [← List.map_tail, throughBlockEnd_map_toLower]
    rfl
  · -- a quote is no letter
    have hletter : c.isAlpha = false := by
      simp only [Bool.or_eq_true, decide_eq_true_eq] at hquote
      rcases hquote with rfl | rfl <;> rfl
    rw [(toLower_eq_iff hletter).mpr rfl, throughQuote_map_toLower hletter]
    simp only [Lexeme.folded, Lexeme.plain, List.map_cons, (toLower_eq_iff hletter).mpr rfl]
  · rw [throughBacktick_map_toLower]
    rfl
  · rw [frontRun_map_toLower isNumberChar_toLower]
    rfl
  · rw [operatorRun_map_toLower]
    rfl
  · rw [frontRun_map_toLower isWordChar_toLower, ← List.map_cons, wordKind_map_toLower]
    rfl
  · rfl

lemma lexemes_map_toLower (cs : List Char) :
    lexemes (cs.map Char.toLower) = (lexemes cs).map Lexeme.folded := by
  fun_induction lexemes cs
  case case1 => rw [List.map_nil, lexemes, List.map_nil]
  case case2 c rest step ih =>
      rw [List.map_cons, lexemes, scan_map_toLower, ih, List.map_cons]

lemma placeLexemes_folded (start : ℕ) (ls : List Lexeme) :
    placeLexemes start (ls.map Lexeme.folded) =
      (placeLexemes start ls).map (Token.renamed folded) := by
  induction ls generalizing start with
  | nil => rfl
  | cons l ls ih =>
      rw [List.map_cons, placeLexemes, placeLexemes, Lexeme.folded, byteLength_map_toLower, ih,
        List.map_cons, Token.renamed, folded_ofList]

/-- The tokens of a folded query are those of the query, with folded names. -/
lemma tokenize_folded (sql : String) :
    tokenize (folded sql) = (tokenize sql).map (Token.renamed folded) := by
  rw [tokenize, tokenize, toList_folded, lexemes_map_toLower, placeLexemes_folded]

end SqlCompletion
