import SqlCompletion.Error
import SqlCompletion.Json.Reader
import SqlCompletion.Json.Record
import SqlCompletion.Json.Writer
import SqlCompletion.Usage.Record

/-!
The JSON form of usage records:
an object with the fields `version`, `lastUpdated` and `items`, the last of which maps each key to
its `count`, `lastUsed` and `category`.

* `Category.ofValue?`, `UsageEntry.ofValue?`, `UsageRecord.ofValue?`: reading values;
* `UsageRecord.render`: the text of a record;
* `UsageRecord.parse`: the record of a text, unless it has another version. A text of another
  version need not have the form of this one beyond its version.
-/

namespace SqlCompletion

open Json

/-- The category a value stands for: its name, or an object with its name as the only key and no
content. -/
def Category.ofValue? : Value → Option Category
  | .string (some name) => ofName? name
  | .object [(some name, .null)] => ofName? name
  | _ => none

namespace UsageEntry

/-- The uses of a key as a record. -/
def toValue (e : UsageEntry) : Value :=
  .record [("count", .int e.count.toNat), ("lastUsed", .int e.lastUsed.toInt),
    ("category", .text e.category.name)]

/-- The uses a value stands for. -/
def ofValue? (v : Value) : Option UsageEntry :=
  match v.toRecord? ["count", "lastUsed", "category"] with
  | some [count, lastUsed, category] => do
    some ⟨← count.toUInt64?, ← lastUsed.toInt64?, ← Category.ofValue? category⟩
  | _ => none

end UsageEntry

namespace UsageRecord

/-- A usage record as a JSON record. -/
def toValue (r : UsageRecord) : Value :=
  .record [("version", .int r.version.toNat), ("lastUpdated", .int r.lastUpdated.toInt),
    ("items", .record (r.items.entries.map fun (key, e) => (key, e.toValue)))]

/-- The text of a usage record. -/
def render (r : UsageRecord) : String :=
  r.toValue.render

/-- The version a value states, whatever else it holds. -/
def versionOf? (v : Value) : Option UInt32 :=
  match v.toRecord? ["version"] with
  | some [version] => version.toUInt32?
  | _ => none

/-- The usage record a value stands for. -/
def ofValue? (v : Value) : Option UsageRecord :=
  match v.toRecord? ["version", "lastUpdated", "items"] with
  | some [version, lastUpdated, items] => do
    let entries ← items.toFields? UsageEntry.ofValue?
    some ⟨← version.toUInt32?, ← lastUpdated.toInt64?, .ofList entries⟩
  | _ => none

/-- The usage record of a text; none when the text states another version. -/
def parse (raw : String) : Except Error (Option UsageRecord) :=
  match Value.parse? raw with
  | none => .error .serialization
  | some v =>
    match versionOf? v with
    | none => .error .serialization
    | some version =>
      if version ≠ currentVersion then .ok none
      else
        match ofValue? v with
        | none => .error .serialization
        | some r => .ok (some r)

end UsageRecord

end SqlCompletion
