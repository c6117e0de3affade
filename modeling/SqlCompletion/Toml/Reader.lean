import SqlCompletion.Json.Reader
import SqlCompletion.Toml.Scalar

/-!
Reading TOML documents, version 1.1. Every call of a reader that calls itself takes a character or
ends, so the length of the text bounds the calls.

* `nestingLimit`: how far arrays, inline tables and the parts of a key may nest;
* `readText?`: texts in their four kinds of quotes;
* `readKey?`: keys, with dots between their parts;
* `readValue?`: values;
* `parse?`: a whole document.
-/

namespace SqlCompletion.Toml

open Text

/-- How many arrays and inline tables may stand inside one another, and how many parts a key may
have. -/
def nestingLimit : Nat := 80

/-! ### Blanks -/

/-- A space or a tab. -/
def isInlineBlank (c : Char) : Bool :=
  c = ' ' || c = '\t'

/-- The text from its first character that is no space or tab. -/
def skipInline (cs : List Char) : List Char :=
  cs.dropWhile isInlineBlank

/-- A control character other than the tab, which neither texts nor comments may hold. -/
def isForbidden (c : Char) : Bool :=
  (c.toNat < 0x20 && c != '\t') || c = '\x7f'

/-- The text after a comment, if one is next. -/
def skipComment : List Char → List Char
  | '#' :: rest => rest.dropWhile fun c => !isForbidden c
  | cs => cs

/-- The text after the end of a line. -/
def skipNewline? : List Char → Option (List Char)
  | '\n' :: rest => some rest
  | '\r' :: '\n' :: rest => some rest
  | _ => none

/-- The text after what may stand at the end of a line, and after the end itself unless the text
ends there. -/
def endLine? (cs : List Char) : Option (List Char) :=
  match skipComment (skipInline cs) with
  | [] => some []
  | rest => skipNewline? rest

/-- The text after blanks, ends of lines and comments. -/
def skipLines : Nat → List Char → List Char
  | 0, cs => cs
  | bound + 1, cs =>
    match skipNewline? (skipComment (skipInline cs)) with
    | some rest => skipLines bound rest
    | none => skipComment (skipInline cs)

/-! ### Texts and keys -/

/-- The character that hexadecimal digits write; none for half of a surrogate pair. -/
def charOfHex? (digits : List Char) : Option Char :=
  let n := valueOfDigits 16 digits
  if digits.all isHexDigit && n.isValidChar then some (Char.ofNat n) else none

/-- The character denoted by what follows a backslash, and the text after it. -/
def readEscape? : List Char → Option (Char × List Char)
  | 'e' :: rest => some ('\x1b', rest)
  | 'x' :: a :: b :: rest => (charOfHex? [a, b]).map (·, rest)
  | 'u' :: a :: b :: c :: d :: rest => (charOfHex? [a, b, c, d]).map (·, rest)
  | 'U' :: a :: b :: c :: d :: e :: f :: g :: h :: rest =>
    (charOfHex? [a, b, c, d, e, f, g, h]).map (·, rest)
  | c :: rest => if c = '/' then none else (Json.escaped? c).map (·, rest)
  | [] => none

/-- A text on one line, through its closing quote. A backslash escapes between double quotes and
stands for itself between single ones. -/
def readLine? (quote : Char) : Nat → List Char → Option (List Char × List Char)
  | 0, _ => none
  | _, [] => none
  | bound + 1, c :: rest =>
    if c = quote then some ([], rest)
    else if isForbidden c then none
    else do
      let (c, rest) ← if c = '\\' && quote = '\x22' then readEscape? rest else some (c, rest)
      let (s, after) ← readLine? quote bound rest
      some (c :: s, after)

/-- The text after blanks and ends of lines. -/
def skipBlankLines : List Char → List Char
  | '\n' :: rest => skipBlankLines rest
  | '\r' :: '\n' :: rest => skipBlankLines rest
  | c :: rest => if isInlineBlank c then skipBlankLines rest else c :: rest
  | [] => []

/-- The text after the blanks and ends of lines that a backslash at the end of a line takes along;
none when the line goes on. -/
def skipFold? (cs : List Char) : Option (List Char) :=
  (skipNewline? (skipInline cs)).map skipBlankLines

/-- A text on several lines, through its three closing quotes. Up to two quotes may stand right
before those. The ends of lines belong to the text as they are written. -/
def readBlock? (quote : Char) : Nat → List Char → Option (List Char × List Char)
  | 0, _ => none
  | _, [] => none
  | bound + 1, c :: rest =>
    let (quotes, after) := frontRun (· = quote) (c :: rest)
    if 5 < quotes.length then none
    else if 3 ≤ quotes.length then some (quotes.drop 3, after)
    else if c = '\\' && quote = '\x22' then
      match skipFold? rest with
      | some rest => readBlock? quote bound rest
      | none => do
        let (c, rest) ← readEscape? rest
        let (s, after) ← readBlock? quote bound rest
        some (c :: s, after)
    else if isForbidden c && (skipNewline? (c :: rest)).isNone then none
    else do
      let (s, after) ← readBlock? quote bound rest
      some (c :: s, after)

/-- A text whose first opening quote is read. An end of line right after three opening quotes does
not belong to the text. -/
def readText? (quote : Char) (cs : List Char) : Option (List Char × List Char) :=
  match cs with
  | a :: b :: rest =>
    if a = quote && b = quote then
      readBlock? quote (rest.length + 1) ((skipNewline? rest).getD rest)
    else readLine? quote (cs.length + 1) cs
  | _ => readLine? quote (cs.length + 1) cs

/-- The characters of which keys without quotes are made. -/
def isKeyChar (c : Char) : Bool :=
  c.isAlphanum || c = '_' || c = '-'

/-- One part of a key. -/
def readPart? (cs : List Char) : Option (String × List Char) :=
  match cs with
  | [] => none
  | c :: rest =>
    if c = '\x22' || c = '\x27' then
      (readLine? c (cs.length + 1) rest).map fun (s, after) => (String.ofList s, after)
    else
      let (word, after) := frontRun isKeyChar cs
      if word.isEmpty then none else some (String.ofList word, after)

/-- The further parts of a key, each after a dot. -/
def readParts? : Nat → List Char → Option (List String × List Char)
  | 0, _ => none
  | bound + 1, cs =>
    match skipInline cs with
    | '.' :: rest => do
      let (part, rest) ← readPart? (skipInline rest)
      let (parts, after) ← readParts? bound rest
      some (part :: parts, after)
    | rest => some ([], rest)

/-- A key: its first part, its further parts, and the text after it and the blanks behind it. -/
def readKey? (cs : List Char) : Option ((String × List String) × List Char) := do
  let (part, rest) ← readPart? (skipInline cs)
  let (parts, after) ← readParts? (rest.length + 1) rest
  if parts.length < nestingLimit then some ((part, parts), after) else none

/-! ### Values -/

/-- The characters of which values without quotes or brackets are made. -/
def isScalarChar (c : Char) : Bool :=
  c.isAlphanum || c = '_' || c = '-' || c = '+' || c = '.' || c = ':'

/-- A value without quotes or brackets. A date goes on after a space when a digit follows it. -/
def readScalar? (cs : List Char) : Option (Value × List Char) :=
  let (word, rest) := frontRun isScalarChar cs
  let (word, rest) := match afterDate? word, rest with
    | some [], ' ' :: c :: more =>
      if c.isDigit then
        let (time, rest) := frontRun isScalarChar (c :: more)
        (word ++ ' ' :: time, rest)
      else (word, rest)
    | _, _ => (word, rest)
  (Value.ofWord? word).map (·, rest)

mutual

/-- A value at the front of a text. In its place as many arrays and inline tables may stand inside
one another as `room` says. -/
def readValue? : Nat → Nat → List Char → Option (Value × List Char)
  | 0, _, _ => none
  | _, _, [] => none
  | bound + 1, room, c :: rest =>
    if c = '\x22' || c = '\x27' then
      (readText? c rest).map fun (s, after) => (.text (String.ofList s), after)
    else if c = '[' then if room = 0 then none else readItems? bound (room - 1) rest
    else if c = '\x7b' then if room = 0 then none else readPairs? bound (room - 1) [] rest
    else readScalar? (c :: rest)

/-- The items of an array up to its closing bracket, with commas between them and perhaps one
after the last. -/
def readItems? : Nat → Nat → List Char → Option (Value × List Char)
  | 0, _, _ => none
  | bound + 1, room, cs =>
    match skipLines (cs.length + 1) cs with
    | ']' :: after => some (.other, after)
    | rest => do
      let (_, rest) ← readValue? bound room rest
      match skipLines (rest.length + 1) rest with
      | ',' :: rest => readItems? bound room rest
      | ']' :: after => some (.other, after)
      | _ => none

/-- The pairs of an inline table up to its closing brace, with commas between them and perhaps one
after the last. Lines may end anywhere but inside a key. -/
def readPairs? : Nat → Nat → Entries → List Char → Option (Value × List Char)
  | 0, _, _, _ => none
  | bound + 1, room, entries, cs =>
    match skipLines (cs.length + 1) cs with
    | '\x7d' :: after => some (.other, after)
    | rest => do
      let ((key, parts), rest) ← readKey? rest
      match skipLines (rest.length + 1) rest with
      | '=' :: rest =>
        let (v, rest) ← readValue? bound room (skipLines (rest.length + 1) rest)
        let entries ← assign? v key parts entries
        match skipLines (rest.length + 1) rest with
        | ',' :: rest => readPairs? bound room entries rest
        | '\x7d' :: after => some (.other, after)
        | _ => none
      | _ => none

end

/-! ### Documents -/

/-- The path of a header and the last part of its key. -/
def splitKey (key : String) : List String → List String × String
  | [] => ([], key)
  | next :: parts =>
    let (path, last) := splitKey next parts
    (key :: path, last)

/-- A header after its opening bracket: the path of the table it opens and the entries then. -/
def readHeader? (entries : Entries) (cs : List Char) :
    Option ((List String × Entries) × List Char) :=
  match cs with
  | '[' :: rest => do
    let ((key, parts), rest) ← readKey? rest
    match rest with
    | ']' :: ']' :: after =>
      let (path, last) := splitKey key parts
      let entries ← within? (openElement? last) path entries
      some ((key :: parts, entries), after)
    | _ => none
  | cs => do
    let ((key, parts), rest) ← readKey? cs
    match rest with
    | ']' :: after =>
      let (path, last) := splitKey key parts
      let entries ← within? (openTable? last) path entries
      some ((key :: parts, entries), after)
    | _ => none

/-- The entries of a document that goes on in the table at a path. -/
def readDocument? : Nat → List String → Entries → List Char → Option Entries
  | 0, _, _, _ => none
  | bound + 1, path, entries, cs =>
    match skipLines (cs.length + 1) cs with
    | [] => some entries
    | '[' :: rest => do
      let ((path, entries), rest) ← readHeader? entries rest
      readDocument? bound path entries (← endLine? rest)
    | rest => do
      let ((key, parts), rest) ← readKey? rest
      match rest with
      | '=' :: rest =>
        let rest := skipInline rest
        let (v, rest) ← readValue? (rest.length + 1) nestingLimit rest
        let entries ← within? (assign? v key parts) path entries
        readDocument? bound path entries (← endLine? rest)
      | _ => none

/-- The entries of a document. A byte order mark at its beginning is passed over. -/
def parse? (text : String) : Option Entries :=
  let cs := match text.toList with
    | '\ufeff' :: rest => rest
    | cs => cs
  readDocument? (cs.length + 1) [] [] cs

end SqlCompletion.Toml
