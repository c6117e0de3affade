import SqlCompletion.Proofs.Json.Limits
import SqlCompletion.Schema.Format

/-!
The text of a schema in the listed form gives the schema back.

* `Column.ofValue?_toValue`, `Table.ofValue?_toValue`, `Database.ofValue?_toValue`,
  `Schema.ofListed?_toValue`: the values stand for what they were made of;
* `Schema.isModest_toValue`: seven arrays and objects stand inside one another, which is within the
  limits of a text;
* `Schema.parse_render_listed`: so a schema is read back from its text, and in this form alone.
-/

namespace SqlCompletion

open Json

/-- The items of an array are read back when each of them is. -/
lemma Json.Value.toList?_array {α : Type} {item : Value → Option α} {toValue : α → Value}
    (hitem : ∀ a, item (toValue a) = some a) (xs : List α) :
    (Value.array (xs.map toValue)).toList? item = some xs := by
  rw [toList?]
  induction xs with
  | nil => rfl
  | cons x xs ih => simp_all

namespace Column

@[simp] lemma ofValue?_toValue (c : Column) : ofValue? c.toValue = some c := by
  rw [ofValue?, toValue, Value.toRecord?_record]
  · simp [List.lookup_cons]
  · simp

lemma isModest_toValue (c : Column) : c.toValue.IsModest 1 := by
  refine .record ?_
  simp [Value.IsModest.text]

end Column

namespace Table

@[simp] lemma ofValue?_toValue (t : Table) : ofValue? t.toValue = some t := by
  rw [ofValue?, toValue, Value.toRecord?_record]
  · simp [List.lookup_cons, Value.toList?_array Column.ofValue?_toValue]
  · simp

lemma isModest_toValue (t : Table) : t.toValue.IsModest 3 := by
  refine .record ?_
  rw [List.forall_mem_cons, List.forall_mem_singleton]
  exact ⟨.text _, .array (by simp [Column.isModest_toValue])⟩

end Table

namespace Database

@[simp] lemma ofValue?_toValue (d : Database) : ofValue? d.toValue = some d := by
  rw [ofValue?, toValue, Value.toRecord?_record]
  · simp [List.lookup_cons, Value.toList?_array Table.ofValue?_toValue]
  · simp

lemma isModest_toValue (d : Database) : d.toValue.IsModest 5 := by
  refine .record ?_
  rw [List.forall_mem_cons, List.forall_mem_singleton]
  exact ⟨.text _, .array (by simp [Table.isModest_toValue])⟩

end Database

namespace Schema

@[simp] lemma ofListed?_toValue (s : Schema) : ofListed? s.toValue = some s := by
  rw [ofListed?, toValue, Value.toRecord?_record]
  · simp [List.lookup_cons, Value.toList?_array Database.ofValue?_toValue]
  · simp

/-- A listed schema is no tree: what stands under its only key is no object. -/
lemma ofTree?_toValue (s : Schema) : ofTree? s.toValue = none := by
  simp [ofTree?, toValue, Value.record, Value.toFields?]

lemma isModest_toValue (s : Schema) : s.toValue.IsModest 7 := by
  refine .record ?_
  rw [List.forall_mem_singleton]
  exact .array (by simp [Database.isModest_toValue])

/-- The text of a schema is the text of its value. -/
lemma parse?_render (s : Schema) : Value.parse? s.render = some s.toValue :=
  Value.parse?_render s.isModest_toValue.isExact

/-- **Listed schemas round trip.** The text of a schema in the listed form is read as exactly this
schema: databases, tables and columns in their order, with the names and types they have, also where
names are repeated and lists are empty. It cannot be read in the tree form, which would sort and
merge them. -/
theorem parse_render_listed (s : Schema) :
    parse s.render = .ok s ∧ (Value.parse? s.render).bind ofTree? = none := by
  have hlimits : s.toValue.withinLimits := s.isModest_toValue.withinLimits (by decide)
  have hvalue : ofValue? s.toValue = some s := by
    rw [ofValue?, if_pos hlimits, ofListed?_toValue, Option.some_or]
  constructor
  · rw [parse, parse?_render, Option.bind_some, hvalue]
  · rw [parse?_render, Option.bind_some, ofTree?_toValue]

end Schema

end SqlCompletion
