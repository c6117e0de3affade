import SqlCompletion.Json.Value

/-!
Reading the values of a program from JSON values.

A record is an object with each of its fields exactly once, whatever other fields stand among
them, or an array of exactly the fields in their order. Numbers must fit their type and be
written as integers.

* `Value.toText?`, `Value.toUInt32?`, `Value.toUInt64?`, `Value.toInt64?`: single values;
* `Value.toList?`, `Value.toFields?`: sequences and keyed collections;
* `Value.toRecord?`: the fields of a record, in the order of their names.
-/

namespace SqlCompletion.Json.Value

/-- The text a string denotes. -/
def toText? : Value → Option String
  | .string s => s
  | _ => none

/-- A natural number below a limit. -/
def toBounded? (limit : Nat) : Value → Option Nat
  | .number (.integer false n) => if n < limit then some n else none
  | _ => none

/-- An unsigned number of 32 bits. -/
def toUInt32? (v : Value) : Option UInt32 :=
  (v.toBounded? UInt32.size).map UInt32.ofNat

/-- An unsigned number of 64 bits. -/
def toUInt64? (v : Value) : Option UInt64 :=
  (v.toBounded? UInt64.size).map UInt64.ofNat

/-- A signed number of 64 bits; a negative zero is none. -/
def toInt64? : Value → Option Int64
  | .number (.integer false n) =>
    if n ≤ Int64.maxValue.toInt then some (Int64.ofInt n) else none
  | .number (.integer true n) =>
    if 0 < n && Int64.minValue.toInt ≤ -n then some (Int64.ofInt (-n)) else none
  | _ => none

/-- The items of an array, each read by `item`. -/
def toList? {α : Type} (item : Value → Option α) : Value → Option (List α)
  | .array vs => vs.mapM item
  | _ => none

/-- The fields of an object, each value read by `item` and each key denoting a text. -/
def toFields? {α : Type} (item : Value → Option α) : Value → Option (List (String × α))
  | .object fields => fields.mapM fun (key, v) => do some (← key, ← item v)
  | _ => none

/-- The value of a field that stands exactly once among the given ones. -/
def onlyField? (name : String) (fields : List (Literal × Value)) : Option Value :=
  match fields.filter fun (key, _) => key == some name with
  | [(_, v)] => some v
  | _ => none

/-- The values of the named fields of a record, in the order of the names. -/
def toRecord? (names : List String) : Value → Option (List Value)
  | .object fields =>
    if fields.any fun (key, _) => key.isNone then none
    else names.mapM fun name => onlyField? name fields
  | .array vs => if vs.length = names.length then some vs else none
  | _ => none

end SqlCompletion.Json.Value
