import SqlCompletion.Json.Value

/-!
Reading JSON text. The grammar is strict: no comments, no trailing commas, no leading zeros, no
control characters inside literals, and nothing but blanks around the value. What a literal or a
number denotes is left to those who use the value, so a field that is passed over may hold a
number of any size and an escape that is half of a surrogate pair.

* `CodeUnit`, `readUnits`, `pairSurrogates`: string literals;
* `readNumber`: numbers;
* `readValue`: values, by recursion on a bound that the length of the text always meets;
* `Value.parse?`: a whole text.
-/

namespace SqlCompletion.Json

/-- Space, tab, newline or carriage return. -/
def isBlank (c : Char) : Bool :=
  c = ' ' || c = '\t' || c = '\n' || c = '\r'

/-- The text from its first character that is not blank. -/
def skipBlanks (cs : List Char) : List Char :=
  cs.dropWhile isBlank

/-! ### String literals -/

/-- What a piece of a string literal denotes: a character, or half of a surrogate pair. -/
inductive CodeUnit
  | char (c : Char)
  | surrogate (n : Nat)
  deriving DecidableEq, Repr

/-- The code unit of a `\u` escape with the given value. -/
def CodeUnit.ofNat (n : Nat) : CodeUnit :=
  if 0xD800 ≤ n && n ≤ 0xDFFF then .surrogate n else .char (Char.ofNat n)

/-- The value of a hexadecimal digit in either case. -/
def hexValue? (c : Char) : Option Nat :=
  if c.isDigit then some (c.toNat - 48)
  else if 'a' ≤ c && c ≤ 'f' then some (c.toNat - 87)
  else if 'A' ≤ c && c ≤ 'F' then some (c.toNat - 55)
  else none

/-- The value of four hexadecimal digits. -/
def fourHex? (a b c d : Char) : Option Nat := do
  some ((((← hexValue? a) * 16 + (← hexValue? b)) * 16 + (← hexValue? c)) * 16 + (← hexValue? d))

/-- The character denoted by a backslash and the given one. -/
def escaped? (c : Char) : Option Char :=
  if c = '\x22' || c = '\\' || c = '/' then some c
  else if c = 'b' then some '\x08'
  else if c = 'f' then some '\x0c'
  else if c = 'n' then some '\n'
  else if c = 'r' then some '\r'
  else if c = 't' then some '\t'
  else none

/-- The code units up to the closing quote, and the text after it. -/
def readUnits : List Char → Option (List CodeUnit × List Char)
  | [] => none
  | '\\' :: 'u' :: a :: b :: c :: d :: rest => do
    let n ← fourHex? a b c d
    let (units, after) ← readUnits rest
    some (.ofNat n :: units, after)
  | '\\' :: e :: rest => do
    let c ← escaped? e
    let (units, after) ← readUnits rest
    some (.char c :: units, after)
  | c :: rest =>
    if c = '\x22' then some ([], rest)
    else if c = '\\' || c.toNat < 0x20 then none
    else do
      let (units, after) ← readUnits rest
      some (.char c :: units, after)

/-- The characters denoted by code units; none unless each surrogate stands in a pair, the high
one first. -/
def pairSurrogates : List CodeUnit → Option (List Char)
  | [] => some []
  | .char c :: rest => (pairSurrogates rest).map (c :: ·)
  | .surrogate high :: .surrogate low :: rest =>
    if high < 0xDC00 && 0xDC00 ≤ low then
      (pairSurrogates rest).map
        (Char.ofNat (0x10000 + (high - 0xD800) * 0x400 + (low - 0xDC00)) :: ·)
    else none
  | .surrogate _ :: _ => none

/-- A string literal whose opening quote is already read. -/
def readLiteral (cs : List Char) : Option (Literal × List Char) :=
  (readUnits cs).map fun (units, after) => ((pairSurrogates units).map String.ofList, after)

/-- The key of a field and the colon after it. -/
def readKey (cs : List Char) : Option (Literal × List Char) :=
  match skipBlanks cs with
  | '\x22' :: rest => do
    let (key, rest) ← readLiteral rest
    match skipBlanks rest with
    | ':' :: after => some (key, after)
    | _ => none
  | _ => none

/-! ### Numbers -/

/-- The digits at the front of a text, and the rest. -/
def readDigits (cs : List Char) : List Char × List Char :=
  (cs.takeWhile Char.isDigit, cs.dropWhile Char.isDigit)

/-- A minus sign, if the text begins with one. -/
def readMinus : List Char → Bool × List Char
  | '-' :: rest => (true, rest)
  | cs => (false, cs)

/-- The digits after a decimal point, none when there is no point. A point without digits is an
error. -/
def readFraction : List Char → Option (List Char × List Char)
  | '.' :: rest =>
    let (digits, after) := readDigits rest
    if digits.isEmpty then none else some (digits, after)
  | cs => some ([], cs)

/-- The digits of an exponent whose mark is read, with their sign. -/
def readExponentDigits (negative : Bool) (cs : List Char) : Option (Int × List Char) :=
  let (digits, after) := readDigits cs
  if digits.isEmpty then none
  else
    let magnitude := Nat.ofDigitChars 10 digits 0
    some (if negative then - (magnitude : Int) else magnitude, after)

/-- The exponent, if one is written. A mark without digits is an error. -/
def readExponent : List Char → Option (Option Int × List Char)
  | c :: rest =>
    if c = 'e' || c = 'E' then
      (match rest with
        | '+' :: digits => readExponentDigits false digits
        | '-' :: digits => readExponentDigits true digits
        | digits => readExponentDigits false digits).map fun (e, after) => (some e, after)
    else some (none, c :: rest)
  | [] => some (none, [])

/-- The digits before a point: one digit, or several of which the first is not zero. -/
def isWhole : List Char → Bool
  | [] => false
  | [_] => true
  | d :: _ => d != '0'

/-- A number at the front of a text. -/
def readNumber (cs : List Char) : Option (Number × List Char) := do
  let (negative, rest) := readMinus cs
  let (whole, rest) := readDigits rest
  if !isWhole whole then none
  else
    let (fraction, rest) ← readFraction rest
    let (exponent, rest) ← readExponent rest
    if fraction.isEmpty && exponent.isNone then
      some (.integer negative (Nat.ofDigitChars 10 whole 0), rest)
    else some (.decimal negative whole fraction (exponent.getD 0), rest)

/-! ### Values -/

mutual

/-- A value at the front of a text, after blanks. -/
def readValue : Nat → List Char → Option (Value × List Char)
  | 0, _ => none
  | bound + 1, cs =>
    match skipBlanks cs with
    | '\x22' :: rest => do
      let (s, after) ← readLiteral rest
      some (.string s, after)
    | '[' :: rest =>
      match skipBlanks rest with
      | ']' :: after => some (.array [], after)
      | rest => do
        let (v, rest) ← readValue bound rest
        let (vs, after) ← readItems bound rest
        some (.array (v :: vs), after)
    | '\x7b' :: rest =>
      match skipBlanks rest with
      | '\x7d' :: after => some (.object [], after)
      | rest => do
        let (key, rest) ← readKey rest
        let (v, rest) ← readValue bound rest
        let (fields, after) ← readFields bound rest
        some (.object ((key, v) :: fields), after)
    | 'n' :: 'u' :: 'l' :: 'l' :: after => some (.null, after)
    | 't' :: 'r' :: 'u' :: 'e' :: after => some (.bool true, after)
    | 'f' :: 'a' :: 'l' :: 's' :: 'e' :: after => some (.bool false, after)
    | rest => do
      let (n, after) ← readNumber rest
      some (.number n, after)

/-- The items of an array after one of them, through the closing bracket. -/
def readItems : Nat → List Char → Option (List Value × List Char)
  | 0, _ => none
  | bound + 1, cs =>
    match skipBlanks cs with
    | ']' :: after => some ([], after)
    | ',' :: rest => do
      let (v, rest) ← readValue bound rest
      let (vs, after) ← readItems bound rest
      some (v :: vs, after)
    | _ => none

/-- The fields of an object after one of them, through the closing brace. -/
def readFields : Nat → List Char → Option (List (Literal × Value) × List Char)
  | 0, _ => none
  | bound + 1, cs =>
    match skipBlanks cs with
    | '\x7d' :: after => some ([], after)
    | ',' :: rest => do
      let (key, rest) ← readKey rest
      let (v, rest) ← readValue bound rest
      let (fields, after) ← readFields bound rest
      some ((key, v) :: fields, after)
    | _ => none

end

/-- The value a text consists of, blanks apart. Every call of the reader takes a character, so the
length of the text bounds their nesting. -/
def Value.parse? (text : String) : Option Value :=
  match readValue (text.toList.length + 1) text.toList with
  | some (v, after) => if after.all isBlank then some v else none
  | none => none

end SqlCompletion.Json
