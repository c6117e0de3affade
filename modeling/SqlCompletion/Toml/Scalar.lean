import SqlCompletion.Text.Ascii
import SqlCompletion.Toml.Document

/-!
The values of TOML that are written without quotes or brackets.

* `integer?`: decimal, hexadecimal, octal and binary integers, of at most 128 bits;
* `isFloat`: numbers with a fraction or an exponent in the range of 64-bit floating point,
  infinities and not-a-numbers;
* `isMoment`: dates, times, and dates with times, whose seconds may be left out;
* `Value.ofWord?`: the value of a word.
-/

namespace SqlCompletion.Toml

open Text

/-- Digits of a kind, in groups between which single underscores stand. -/
def isGrouped (isDigit : Char → Bool) : List Char → Bool
  | [] => false
  | [c] => isDigit c
  | c :: '_' :: rest => isDigit c && isGrouped isDigit rest
  | c :: rest => isDigit c && isGrouped isDigit rest

/-- The value of a digit in bases up to 16. -/
def digitValue (c : Char) : Nat :=
  if c.isDigit then c.toNat - 48 else c.toLower.toNat - 87

/-- A digit of base 16. -/
def isHexDigit (c : Char) : Bool :=
  c.isDigit || ('a' ≤ c.toLower && c.toLower ≤ 'f')

/-- A digit of a base up to 8. -/
def isLowDigit (base : Nat) (c : Char) : Bool :=
  c.isDigit && digitValue c < base

/-- The number that digits and underscores write in a base. -/
def valueOfDigits (base : Nat) (digits : List Char) : Nat :=
  (digits.filter (· != '_')).foldl (fun n d => n * base + digitValue d) 0

/-- Digits without a zero before others. -/
def isDecimal (digits : List Char) : Bool :=
  isGrouped Char.isDigit digits && (digits.length = 1 || digits.head? != some '0')

/-- The text after a sign, if there is one, and whether it is a minus. -/
def dropSign : List Char → Bool × List Char
  | '-' :: rest => (true, rest)
  | '+' :: rest => (false, rest)
  | rest => (false, rest)

/-- The number that digits write in a base, with or without a minus. -/
def signedValue (negative : Bool) (base : Nat) (digits : List Char) : Int :=
  if negative then - (valueOfDigits base digits : Int) else valueOfDigits base digits

/-- The integer a word writes, whatever its size. -/
def writtenInteger? (word : List Char) : Option Int :=
  match word with
  | '0' :: 'x' :: digits =>
    if isGrouped isHexDigit digits then some (signedValue false 16 digits) else none
  | '0' :: 'o' :: digits =>
    if isGrouped (isLowDigit 8) digits then some (signedValue false 8 digits) else none
  | '0' :: 'b' :: digits =>
    if isGrouped (isLowDigit 2) digits then some (signedValue false 2 digits) else none
  | _ =>
    let (negative, digits) := dropSign word
    if isDecimal digits then some (signedValue negative 10 digits) else none

/-- The integer a word writes, if it fits 128 bits with or without a sign. -/
def integer? (word : List Char) : Option Int :=
  (writtenInteger? word).filter fun i => - Nat.pow 2 127 ≤ i && i < Nat.pow 2 128

/-- The mark that opens an exponent. -/
def isExponentMark (c : Char) : Bool :=
  c = 'e' || c = 'E'

/-- The power of ten that an exponent with its mark stands for. -/
def exponent? : List Char → Option Int
  | c :: rest =>
    let (negative, digits) := dropSign rest
    if isExponentMark c && isGrouped Char.isDigit digits then some (signedValue negative 10 digits)
    else none
  | [] => none

/-- The least magnitude that a 64-bit floating point number rounds to infinity: half a step above
the greatest finite one. -/
def floatLimit : Nat :=
  Nat.pow 2 1024 - Nat.pow 2 970

/-- Digits times a power of ten stay below the limit of floating point. The length of the digits
settles all but the powers that are near the limit. -/
def isInFloatRange (digits : List Char) (power : Int) : Bool :=
  let n := valueOfDigits 10 digits
  n = 0 ||
    match power with
    | .ofNat p => p ≤ 308 && n * Nat.pow 10 p < floatLimit
    | .negSucc p => digits.length ≤ 308 + p || n < floatLimit * Nat.pow 10 (p + 1)

/-- A word writes a number that is no integer. -/
def isFloat (word : List Char) : Bool :=
  let (_, number) := dropSign word
  let (whole, rest) := frontRun (fun c => c != '.' && !isExponentMark c) number
  number = ['i', 'n', 'f'] || number = ['n', 'a', 'n'] ||
    (isDecimal whole &&
      match rest with
      | '.' :: rest =>
        let (fraction, rest) := frontRun (fun c => !isExponentMark c) rest
        let places := fraction.countP Char.isDigit
        isGrouped Char.isDigit fraction &&
          (if rest.isEmpty then some 0 else exponent? rest).any fun power =>
            isInFloatRange (whole ++ fraction) (power - places)
      | rest => (exponent? rest).any (isInFloatRange whole))

/-- Two digits that write a number between two limits. -/
def isPair (least greatest : Nat) (a b : Char) : Bool :=
  let n := valueOfDigits 10 [a, b]
  a.isDigit && b.isDigit && least ≤ n && n ≤ greatest

/-- The number of days of a month. -/
def daysOfMonth (year month : Nat) : Nat :=
  if month = 2 then
    if year % 4 = 0 && (year % 100 != 0 || year % 400 = 0) then 29 else 28
  else if month = 4 || month = 6 || month = 9 || month = 11 then 30
  else 31

/-- The text after a date. -/
def afterDate? : List Char → Option (List Char)
  | y₁ :: y₂ :: y₃ :: y₄ :: '-' :: m₁ :: m₂ :: '-' :: d₁ :: d₂ :: rest =>
    let year := [y₁, y₂, y₃, y₄]
    let month := valueOfDigits 10 [m₁, m₂]
    if year.all Char.isDigit && isPair 1 12 m₁ m₂ &&
        isPair 1 (daysOfMonth (valueOfDigits 10 year) month) d₁ d₂ then
      some rest
    else none
  | _ => none

/-- The text after the seconds of a time, if they are next, and after a fraction of them. -/
def afterSeconds? : List Char → Option (List Char)
  | ':' :: s₁ :: s₂ :: '.' :: rest =>
    let (digits, rest) := frontRun Char.isDigit rest
    if isPair 0 60 s₁ s₂ && !digits.isEmpty then some rest else none
  | ':' :: s₁ :: s₂ :: rest => if isPair 0 60 s₁ s₂ then some rest else none
  | rest => some rest

/-- The text after a time of day. -/
def afterTime? : List Char → Option (List Char)
  | h₁ :: h₂ :: ':' :: m₁ :: m₂ :: rest =>
    if isPair 0 23 h₁ h₂ && isPair 0 59 m₁ m₂ then afterSeconds? rest else none
  | _ => none

/-- The distance of a time from universal time. -/
def isOffset : List Char → Bool
  | [c] => c = 'Z' || c = 'z'
  | [sign, h₁, h₂, ':', m₁, m₂] =>
    (sign = '+' || sign = '-') && isPair 0 23 h₁ h₂ && isPair 0 59 m₁ m₂
  | _ => false

/-- A word writes a date, a time, or a date with a time. -/
def isMoment (word : List Char) : Bool :=
  match afterDate? word with
  | some [] => true
  | some (c :: time) =>
    (c = 'T' || c = 't' || c = ' ') &&
      match afterTime? time with
      | some rest => rest.isEmpty || isOffset rest
      | none => false
  | none => afterTime? word == some []

/-- The value of a word. -/
def Value.ofWord? (word : List Char) : Option Value :=
  match integer? word with
  | some i => some (.integer i)
  | none =>
    if word = ['t', 'r', 'u', 'e'] || word = ['f', 'a', 'l', 's', 'e'] || isFloat word ||
        isMoment word then some .other
    else none

end SqlCompletion.Toml
