import SqlCompletion.Text.Ascii
import SqlCompletion.Text.Bytes
import SqlCompletion.Token

/-!
The division of a query into tokens.

The division never fails: an unfinished literal, comment or quoted name runs to the end of the
text, and a character of no other kind is a token by itself. Every character belongs to exactly
one token.

* `Lexeme`: a token before it is given its place;
* `scan`: the first lexeme of a non-empty text and what is left of the text;
* `scan_append`: the lexeme and the rest make up the text, and the lexeme is not empty;
* `lexemes`, `tokenize`: the whole text, as lexemes and as placed tokens.
-/

namespace SqlCompletion

open Text

/-- A token before it is given its place: its kind, the characters it covers and the text it
stands for. -/
structure Lexeme where
  kind : TokenKind
  text : List Char
  value : List Char
  deriving DecidableEq, Repr

namespace Lexeme

/-- A lexeme that stands for the very characters it covers. -/
def plain (kind : TokenKind) (text : List Char) : Lexeme :=
  ⟨kind, text, text⟩

end Lexeme

/-! ### Runs of characters -/

/-- The characters of which operators are made. -/
def isOperatorChar (c : Char) : Bool :=
  c = '=' || c = '<' || c = '>' || c = '!' || c = '+' || c = '-' || c = '*' || c = '/' || c = '%'

/-- A letter or an underscore, with which a word begins. -/
def opensWord (c : Char) : Bool :=
  c.isAlpha || c = '_'

/-- A letter, a digit or an underscore, with which a word continues. -/
def isWordChar (c : Char) : Bool :=
  c.isAlphanum || c = '_'

/-- A digit or a dot, with which a number continues. -/
def isNumberChar (c : Char) : Bool :=
  c.isDigit || c = '.'

/-- Two dashes, from which a comment runs to the end of the line. -/
def opensLineComment : List Char → Bool
  | '-' :: '-' :: _ => true
  | _ => false

/-- The opening mark of a block comment. -/
def opensBlockComment : List Char → Bool
  | '/' :: '*' :: _ => true
  | _ => false

/-- The text through the first closing mark of a block comment, and the rest; all of it when the
mark is missing. -/
def throughBlockEnd : List Char → List Char × List Char
  | [] => ([], [])
  | '*' :: '/' :: rest => (['*', '/'], rest)
  | c :: rest =>
    let (covered, after) := throughBlockEnd rest
    (c :: covered, after)

/-- The text through the first closing quote, and the rest; all of it when there is none. A
backslash takes the character after it along. -/
def throughQuote (quote : Char) : List Char → List Char × List Char
  | [] => ([], [])
  | '\\' :: c :: rest =>
    let (covered, after) := throughQuote quote rest
    ('\\' :: c :: covered, after)
  | c :: rest =>
    if c = quote then ([c], rest)
    else
      let (covered, after) := throughQuote quote rest
      (c :: covered, after)

/-- The text through the backtick that closes a name, the name it stands for, and the rest. Two
backticks stand for one and close nothing. -/
def throughBacktick : List Char → List Char × List Char × List Char
  | [] => ([], [], [])
  | '\x60' :: '\x60' :: rest =>
    let (covered, name, after) := throughBacktick rest
    ('\x60' :: '\x60' :: covered, '\x60' :: name, after)
  | c :: rest =>
    if c = '\x60' then ([c], [], rest)
    else
      let (covered, name, after) := throughBacktick rest
      (c :: covered, c :: name, after)

/-- The operator characters up to the next comment, and the rest. -/
def operatorRun : List Char → List Char × List Char
  | [] => ([], [])
  | c :: rest =>
    if isOperatorChar c && !opensLineComment (c :: rest) && !opensBlockComment (c :: rest) then
      let (covered, after) := operatorRun rest
      (c :: covered, after)
    else ([], c :: rest)

/-- The kind of a character that is a token by itself wherever it begins one. -/
def punctuation? (c : Char) : Option TokenKind :=
  if c = '.' then some .dot
  else if c = ',' then some .comma
  else if c = '(' then some .parenOpen
  else if c = ')' then some .parenClose
  else none

/-- What a bare word is: a keyword when its upper-case form is one. -/
def wordKind (word : List Char) : TokenKind :=
  match Keyword.ofUpper? (upperAscii word) with
  | some k => .keyword k
  | none => .identifier

/-! ### The first lexeme of a text -/

/-- The first lexeme of the text that begins with `c` and goes on with `rest`, and what is left.
The first rule that applies decides. -/
def scan (c : Char) (rest : List Char) : Lexeme × List Char :=
  if isBlank c then
    let (blanks, after) := frontRun isBlank rest
    (.plain .whitespace (c :: blanks), after)
  else if opensLineComment (c :: rest) then
    let (line, after) := frontRun (· ≠ '\n') rest
    (.plain .comment (c :: line), after)
  else if opensBlockComment (c :: rest) then
    let (block, after) := throughBlockEnd rest.tail
    (.plain .comment (c :: '*' :: block), after)
  else if c = '\x27' || c = '\x22' then
    let (literal, after) := throughQuote c rest
    (.plain .string (c :: literal), after)
  else if c = '\x60' then
    let (covered, name, after) := throughBacktick rest
    (⟨.identifier, c :: covered, name⟩, after)
  else if c.isDigit then
    let (digits, after) := frontRun isNumberChar rest
    (.plain .number (c :: digits), after)
  else if let some kind := punctuation? c then
    (.plain kind [c], rest)
  else if isOperatorChar c then
    let (run, after) := operatorRun rest
    (.plain .operator (c :: run), after)
  else if opensWord c then
    let (letters, after) := frontRun isWordChar rest
    (.plain (wordKind (c :: letters)) (c :: letters), after)
  else
    (.plain .unknown [c], rest)

theorem throughBlockEnd_append (cs : List Char) :
    (throughBlockEnd cs).1 ++ (throughBlockEnd cs).2 = cs := by
  fun_induction throughBlockEnd cs <;> simp_all

theorem throughQuote_append (quote : Char) (cs : List Char) :
    (throughQuote quote cs).1 ++ (throughQuote quote cs).2 = cs := by
  fun_induction throughQuote quote cs <;> simp_all

theorem throughBacktick_append (cs : List Char) :
    (throughBacktick cs).1 ++ (throughBacktick cs).2.2 = cs := by
  fun_induction throughBacktick cs <;> simp_all

theorem operatorRun_append (cs : List Char) : (operatorRun cs).1 ++ (operatorRun cs).2 = cs := by
  fun_induction operatorRun cs <;> simp_all

/-- The first lexeme covers the first character and some of those after it, in order. -/
theorem scan_append (c : Char) (rest : List Char) :
    ∃ more, (scan c rest).1.text = c :: more ∧ more ++ (scan c rest).2 = rest := by
  unfold scan
  split
  · exact ⟨_, rfl, frontRun_append _ _⟩
  split
  · exact ⟨_, rfl, frontRun_append _ _⟩
  split
  · rename_i h
    obtain ⟨more, rfl⟩ : ∃ more, rest = '*' :: more := by
      unfold opensBlockComment at h
      split at h <;> simp_all
    exact ⟨_, rfl, by simpa using throughBlockEnd_append more⟩
  split
  · exact ⟨_, rfl, throughQuote_append _ _⟩
  split
  · exact ⟨_, rfl, throughBacktick_append _⟩
  split
  · exact ⟨_, rfl, frontRun_append _ _⟩
  split
  · exact ⟨[], rfl, rfl⟩
  split
  · exact ⟨_, rfl, operatorRun_append _⟩
  split
  · exact ⟨_, rfl, frontRun_append _ _⟩
  · exact ⟨[], rfl, rfl⟩

/-- What is left after the first lexeme is no longer than what followed the first character. -/
theorem length_scan_le (c : Char) (rest : List Char) : (scan c rest).2.length ≤ rest.length := by
  obtain ⟨more, -, h⟩ := scan_append c rest
  have := congrArg List.length h
  rw [List.length_append] at this
  omega

/-! ### The whole text -/

/-- The lexemes of a text, in order. -/
def lexemes : List Char → List Lexeme
  | [] => []
  | c :: rest =>
    let step := scan c rest
    step.1 :: lexemes step.2
termination_by cs => cs.length
decreasing_by
  have := length_scan_le c rest
  simp only [List.length_cons]
  omega

/-- Lexemes one after another, the first at the byte offset `start`. -/
def placeLexemes (start : Nat) : List Lexeme → List Token
  | [] => []
  | l :: rest =>
    let stop := start + byteLength l.text
    ⟨l.kind, String.ofList l.value, start, stop⟩ :: placeLexemes stop rest

/-- The tokens of a query, in order. -/
def tokenize (sql : String) : List Token :=
  placeLexemes 0 (lexemes sql.toList)

end SqlCompletion
