import SqlCompletion.Json.Value

/-!
The limits under which a JSON text is taken as a whole, fields that are passed over included: at
most 127 arrays and objects inside one another, no number beyond the range of a 64-bit floating
point number, and no literal that denotes no text.

* `roundTo53`: the nearest number with 53 significant bits;
* `Number.fitsDouble`: the range of numbers;
* `Value.depth`, `Value.isPlain`, `Value.withinLimits`: the limits on values.
-/

namespace SqlCompletion.Json

/-- The nearest number with at most 53 significant bits; a tie goes to the even one. -/
def roundTo53 (n : Nat) : Nat :=
  let unit := Nat.pow 2 (n.log2 + 1 - 53)
  let quotient := n / unit
  let excess := 2 * (n % unit)
  (if unit < excess || (excess = unit && quotient % 2 = 1) then quotient + 1 else quotient) * unit

/-- As many leading digits as keep the number in 64 bits, appended to `n`, and the other digits. -/
def absorbDigits (n : Nat) : List Char → Nat × List Char
  | [] => (n, [])
  | d :: digits =>
    let m := 10 * n + (d.toNat - 48)
    if m < UInt64.size then absorbDigits m digits else (n, d :: digits)

/-- A number is in range when its leading digits times its power of ten, both rounded to 53 bits,
round to less than `2 ^ 1024`. -/
def Number.fitsDouble (number : Number) : Bool :=
  let (whole, fraction, exponent) := match number with
    | .integer _ magnitude => (Nat.toDigits 10 magnitude, [], 0)
    | .decimal _ whole fraction exponent => (whole, fraction, exponent)
  let (leading, dropped) := absorbDigits 0 whole
  let (significand, ignored) := absorbDigits leading fraction
  let power : Int := dropped.length - (fraction.length - ignored.length : Nat) + exponent
  significand = 0 || power ≤ 0 ||
    (power ≤ 308 &&
      roundTo53 (roundTo53 significand * roundTo53 (Nat.pow 10 power.toNat)) <
        Nat.pow 2 1024)

namespace Value

mutual

/-- How many arrays and objects stand inside one another. -/
def depth : Value → Nat
  | .array vs => depthOfItems vs + 1
  | .object fields => depthOfFields fields + 1
  | _ => 0

/-- The greatest depth among items. -/
def depthOfItems : List Value → Nat
  | [] => 0
  | v :: vs => max v.depth (depthOfItems vs)

/-- The greatest depth among the values of fields. -/
def depthOfFields : List (Literal × Value) → Nat
  | [] => 0
  | (_, v) :: fields => max v.depth (depthOfFields fields)

end

mutual

/-- Every literal denotes a text and every number is in range. -/
def isPlain : Value → Bool
  | .null | .bool _ => true
  | .number n => n.fitsDouble
  | .string s => s.isSome
  | .array vs => itemsArePlain vs
  | .object fields => fieldsArePlain fields

/-- All items are plain. -/
def itemsArePlain : List Value → Bool
  | [] => true
  | v :: vs => v.isPlain && itemsArePlain vs

/-- All keys denote texts and all values are plain. -/
def fieldsArePlain : List (Literal × Value) → Bool
  | [] => true
  | (key, v) :: fields => key.isSome && v.isPlain && fieldsArePlain fields

end

/-- The value stays within the limits. -/
def withinLimits (v : Value) : Bool :=
  v.depth ≤ 127 && v.isPlain

end Value

end SqlCompletion.Json
