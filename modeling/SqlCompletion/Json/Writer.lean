import SqlCompletion.Json.Value

/-!
JSON text in its compact form: no blanks, fields in their order, and only quotes, backslashes and
control characters escaped.

* `escapeChar`: the written form of a character inside a string literal;
* `Value.write`, `Value.render`: the text of a value.
-/

namespace SqlCompletion.Json

/-- The hexadecimal digits of a byte. -/
def hexByte (n : Nat) : List Char :=
  [Nat.digitChar (n / 16), Nat.digitChar (n % 16)]

/-- A character inside a string literal. Control characters have short forms where JSON gives
them one and `\u00xx` otherwise. -/
def escapeChar (c : Char) : List Char :=
  if c = '\x22' then ['\\', '\x22']
  else if c = '\\' then ['\\', '\\']
  else if c = '\x08' then ['\\', 'b']
  else if c = '\x0c' then ['\\', 'f']
  else if c = '\n' then ['\\', 'n']
  else if c = '\r' then ['\\', 'r']
  else if c = '\t' then ['\\', 't']
  else if c.toNat < 0x20 then '\\' :: 'u' :: '0' :: '0' :: hexByte c.toNat
  else [c]

/-- A string literal with its quotes. One that denotes no text is written as a lone surrogate. -/
def writeLiteral : Literal → List Char
  | some s => '\x22' :: s.toList.flatMap escapeChar ++ ['\x22']
  | none => ['\x22', '\\', 'u', 'd', 'f', 'f', 'f', '\x22']

/-- The sign of a number. -/
def writeSign (negative : Bool) : List Char :=
  if negative then ['-'] else []

/-- A number in its digits. -/
def writeNumber : Number → List Char
  | .integer negative magnitude => writeSign negative ++ Nat.toDigits 10 magnitude
  | .decimal negative whole fraction exponent =>
    writeSign negative ++ whole ++ (if fraction.isEmpty then [] else '.' :: fraction) ++
      'e' :: (writeSign (exponent < 0) ++ Nat.toDigits 10 exponent.natAbs)

namespace Value

mutual

/-- The text of a value. -/
def write : Value → List Char
  | .null => ['n', 'u', 'l', 'l']
  | .bool true => ['t', 'r', 'u', 'e']
  | .bool false => ['f', 'a', 'l', 's', 'e']
  | .number n => writeNumber n
  | .string s => writeLiteral s
  | .array [] => ['[', ']']
  | .array (v :: vs) => '[' :: (v.write ++ writeItems vs)
  | .object [] => ['\x7b', '\x7d']
  | .object ((key, v) :: fields) =>
    '\x7b' :: (writeLiteral key ++ ':' :: (v.write ++ writeFields fields))

/-- The items of an array after the first, with the closing bracket. -/
def writeItems : List Value → List Char
  | [] => [']']
  | v :: vs => ',' :: (v.write ++ writeItems vs)

/-- The fields of an object after the first, with the closing brace. -/
def writeFields : List (Literal × Value) → List Char
  | [] => ['\x7d']
  | (key, v) :: fields => ',' :: (writeLiteral key ++ ':' :: (v.write ++ writeFields fields))

end

/-- The text of a value as a string. -/
def render (v : Value) : String :=
  String.ofList v.write

end Value

end SqlCompletion.Json
