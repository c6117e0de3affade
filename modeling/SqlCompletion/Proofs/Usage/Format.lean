import SqlCompletion.Proofs.Json.Record
import SqlCompletion.Proofs.TextMap
import SqlCompletion.Usage.Format

/-!
The stored text of a usage record gives the record back.

* `UsageEntry.ofValue?_toValue`, `UsageRecord.ofValue?_toValue`: the values stand for what they
  were made of;
* `UsageRecord.parse?_render`: the text of a record is the text of its value;
* `UsageRecord.parse_render`: a record of the current version is read back from its text;
* `UsageRecord.parse_render_eq`: and no other is, whatever it holds.
-/

namespace SqlCompletion

open Json

lemma Category.ofValue?_text (c : Category) : Category.ofValue? (.text c.name) = some c :=
  Category.ofName?_name c

namespace UsageEntry

@[simp] lemma ofValue?_toValue (e : UsageEntry) : ofValue? e.toValue = some e := by
  rw [ofValue?, toValue, Value.toRecord?_record]
  · simp [List.lookup_cons, Category.ofValue?_text]
  · simp

lemma isExact_toValue (e : UsageEntry) : e.toValue.isExact := by
  refine Value.isExact_record ?_
  simp [Value.isExact_int, Value.isExact_text]

end UsageEntry

namespace UsageRecord

@[simp] lemma ofValue?_toValue (r : UsageRecord) : ofValue? r.toValue = some r := by
  rw [ofValue?, toValue, Value.toRecord?_record]
  · simp [List.lookup_cons, Value.toFields?_record UsageEntry.ofValue?_toValue,
      TextMap.ofList_entries]
  · simp

@[simp] lemma versionOf?_toValue (r : UsageRecord) : versionOf? r.toValue = some r.version := by
  rw [versionOf?, toValue, Value.toRecord?_record]
  · simp
  · simp

lemma isExact_toValue (r : UsageRecord) : r.toValue.isExact := by
  refine Value.isExact_record ?_
  rw [List.forall_mem_cons, List.forall_mem_cons, List.forall_mem_singleton]
  refine ⟨Value.isExact_int _, Value.isExact_int _, Value.isExact_record fun field hfield => ?_⟩
  obtain ⟨entry, -, rfl⟩ := List.mem_map.mp hfield
  exact entry.2.isExact_toValue

/-- The text of a record is the text of its value. -/
lemma parse?_render (r : UsageRecord) : Value.parse? r.render = some r.toValue :=
  Value.parse?_render r.isExact_toValue

/-- A record of the current version is read back from its text. -/
lemma parse_render {r : UsageRecord} (h : r.version = currentVersion) :
    parse r.render = .ok (some r) := by
  simp [parse, parse?_render, h]

/-- The text of a record of another version is read as such, and no further. -/
lemma parse_render_of_ne {r : UsageRecord} (h : r.version ≠ currentVersion) :
    parse r.render = .ok none := by
  simp [parse, parse?_render, h]

/-- **Usage records round trip.** The text of a record can always be read, whatever version, times,
counts and keys the record has: it gives back the record if its version is 1, and tells that it is
of another version otherwise. -/
theorem parse_render_eq (r : UsageRecord) :
    parse r.render = .ok (if r.version = 1 then some r else none) := by
  split
  · rename_i hversion
    exact parse_render hversion
  · rename_i hversion
    exact parse_render_of_ne hversion

end UsageRecord

end SqlCompletion
