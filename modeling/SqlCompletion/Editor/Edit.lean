import SqlCompletion.Editor.Position
import SqlCompletion.Error
import SqlCompletion.Json.Reader
import SqlCompletion.Json.Record
import SqlCompletion.Json.Writer

/-!
Changes to a text as an editor reports them, with their JSON form.

* `Edit`: the range that was replaced and the text put there;
* `Range.toValue`, `Range.ofValue?`, `Edit.toValue`, `Edit.ofValue?`: the JSON form;
* `Edit.parse`: an edit from JSON text.
-/

namespace SqlCompletion

open Json

/-- A change to a text. -/
structure Edit where
  range : Range
  inserted : String
  deriving DecidableEq, Repr

namespace Range

/-- The names of the four numbers of a range. -/
def fieldNames : List String :=
  ["startLine", "startColumn", "endLine", "endColumn"]

/-- A range as a record of its four numbers. -/
def toValue (r : Range) : Value :=
  .record [("startLine", .int r.first.line.toNat), ("startColumn", .int r.first.column.toNat),
    ("endLine", .int r.last.line.toNat), ("endColumn", .int r.last.column.toNat)]

/-- The range a value stands for. -/
def ofValue? (v : Value) : Option Range :=
  match v.toRecord? fieldNames with
  | some [a, b, c, d] => do
    some ⟨⟨← a.toUInt32?, ← b.toUInt32?⟩, ⟨← c.toUInt32?, ← d.toUInt32?⟩⟩
  | _ => none

end Range

namespace Edit

/-- An edit as a record. -/
def toValue (e : Edit) : Value :=
  .record [("changedRange", e.range.toValue), ("insertedText", .text e.inserted)]

/-- The edit a value stands for. -/
def ofValue? (v : Value) : Option Edit :=
  match v.toRecord? ["changedRange", "insertedText"] with
  | some [range, text] => do some ⟨← Range.ofValue? range, ← text.toText?⟩
  | _ => none

/-- The edit a JSON text stands for. -/
def parse (raw : String) : Except Error Edit :=
  match (Value.parse? raw).bind ofValue? with
  | some e => .ok e
  | none => .error .serialization

end Edit

end SqlCompletion
