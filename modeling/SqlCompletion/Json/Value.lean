/-!
JSON values as they stand in a text: fields in the order written, repeated keys kept, numbers in
their digits, and string literals that denote no text told apart from those that do.

* `Number`: an integer by sign and magnitude, or a decimal by its digits;
* `Literal`, `Value`: string literals and values;
* `Value.record`, `Value.text`, `Value.int`: the values this library writes.
-/

namespace SqlCompletion.Json

/-- A number as written. An integer has neither a fraction nor an exponent; `-0` and `0` differ. -/
inductive Number
  | integer (negative : Bool) (magnitude : Nat)
  | decimal (negative : Bool) (whole fraction : List Char) (exponent : Int)
  deriving DecidableEq, Repr

/-- The text a string literal denotes; none when an escape in it is half of a surrogate pair. -/
abbrev Literal := Option String

/-- A JSON value. -/
inductive Value
  | null
  | bool (b : Bool)
  | number (n : Number)
  | string (s : Literal)
  | array (items : List Value)
  | object (fields : List (Literal × Value))
  deriving Repr, Inhabited

namespace Value

/-- A text as a value. -/
def text (s : String) : Value :=
  .string (some s)

/-- An integer as a value. -/
def int (i : Int) : Value :=
  .number (.integer (i < 0) i.natAbs)

/-- An object with the given fields in the given order. -/
def record (fields : List (String × Value)) : Value :=
  .object (fields.map fun (key, v) => (some key, v))

end Value

end SqlCompletion.Json
