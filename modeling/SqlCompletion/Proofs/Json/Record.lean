import SqlCompletion.Json.Record
import SqlCompletion.Proofs.Json.RoundTrip

/-!
The values of a program, written as JSON values, are read from them again.

* `Value.toUInt32?_int`, `Value.toUInt64?_int`, `Value.toInt64?_int`: numbers of each width;
* `Value.toRecord?_record`: the fields of a record whose names are all different;
* `Value.toFields?_record`: a keyed collection, whatever its keys;
* `Value.isExact_record`: a record of exact values is exact.
-/

namespace SqlCompletion.Json.Value

/-! ### Numbers -/

lemma toBounded?_int {limit n : ℕ} (h : n < limit) :
    (int n).toBounded? limit = some n := by
  have hsign : decide ((n : ℤ) < 0) = false := by simp
  simp only [int, hsign, toBounded?, Int.natAbs_natCast, if_pos h]

@[simp] lemma toUInt32?_int (n : UInt32) : (int n.toNat).toUInt32? = some n := by
  rw [toUInt32?, toBounded?_int n.toNat_lt, Option.map_some, UInt32.ofNat_toNat]

@[simp] lemma toUInt64?_int (n : UInt64) : (int n.toNat).toUInt64? = some n := by
  rw [toUInt64?, toBounded?_int n.toNat_lt, Option.map_some, UInt64.ofNat_toNat]

/-- A time is read back whatever its sign. -/
@[simp] lemma toInt64?_int (n : Int64) : (int n.toInt).toInt64? = some n := by
  have hmin : Int64.minValue.toInt ≤ n.toInt := n.minValue_le_toInt
  have hmax : n.toInt ≤ Int64.maxValue.toInt := n.toInt_le
  by_cases hneg : n.toInt < 0
  · have habs : -(n.toInt.natAbs : ℤ) = n.toInt := by omega
    have hpos : 0 < n.toInt.natAbs := by omega
    simp only [int, hneg, decide_true, toInt64?, habs, hpos, hmin, Bool.and_self, ↓reduceIte,
      Int64.ofInt_toInt]
  · have habs : (n.toInt.natAbs : ℤ) = n.toInt := by omega
    simp only [int, hneg, decide_false, toInt64?, habs, hmax, ↓reduceIte, Int64.ofInt_toInt]

@[simp] lemma toText?_text (s : String) : (text s).toText? = some s := rfl

/-! ### Records -/

/-- Fields with the keys of a record. -/
def keyed (fields : List (String × Value)) : List (Literal × Value) :=
  fields.map fun (key, v) => (some key, v)

lemma filter_keyed_eq_nil {fields : List (String × Value)} {name : String}
    (h : name ∉ fields.map Prod.fst) :
    (keyed fields).filter (fun (key, _) => key == some name) = [] := by
  rw [List.filter_eq_nil_iff]
  intro field hfield
  obtain ⟨⟨key, v⟩, hmem, rfl⟩ := List.mem_map.mp hfield
  have hne : key ≠ name := by
    rintro rfl
    exact h (List.mem_map.mpr ⟨(key, v), hmem, rfl⟩)
  simpa using hne

lemma onlyField?_keyed {fields : List (String × Value)} (hfields : (fields.map Prod.fst).Nodup)
    (name : String) : onlyField? name (keyed fields) = fields.lookup name := by
  induction fields with
  | nil => rfl
  | cons field fields ih =>
      obtain ⟨key, v⟩ := field
      rw [List.map_cons, List.nodup_cons] at hfields
      have hcons : keyed ((key, v) :: fields) = (some key, v) :: keyed fields := rfl
      by_cases h : key = name
      · subst h
        simp [onlyField?, hcons, filter_keyed_eq_nil hfields.1]
      · have hfilter : (keyed ((key, v) :: fields)).filter (fun (key, _) => key == some name) =
            (keyed fields).filter (fun (key, _) => key == some name) := by
          simp [hcons, h]
        have hlookup : (name == key) = false := by simpa using Ne.symm h
        rw [onlyField?, hfilter, List.lookup_cons, hlookup]
        exact ih hfields.2

/-- The fields of a record are found by their names. -/
lemma toRecord?_record {fields : List (String × Value)} (hfields : (fields.map Prod.fst).Nodup)
    (names : List String) :
    (record fields).toRecord? names = names.mapM fun name => fields.lookup name := by
  have hkeys : (keyed fields).any (fun (key, _) => key.isNone) = false := by
    simp [keyed]
  have hrecord : record fields = .object (keyed fields) := rfl
  rw [hrecord, toRecord?, hkeys]
  simp [onlyField?_keyed hfields]

/-- A keyed collection is read back when each of its values is. -/
lemma toFields?_record {α : Type} {item : Value → Option α} {toValue : α → Value}
    (hitem : ∀ a, item (toValue a) = some a) (entries : List (String × α)) :
    (record (entries.map fun (key, a) => (key, toValue a))).toFields? item = some entries := by
  rw [record, toFields?]
  induction entries with
  | nil => rfl
  | cons entry entries ih => simp_all

/-! ### Exactness -/

lemma isExact_int (i : ℤ) : (int i).isExact := rfl

lemma isExact_text (s : String) : (text s).isExact := rfl

lemma isExact_record {fields : List (String × Value)} (h : ∀ field ∈ fields, field.2.isExact) :
    (record fields).isExact := by
  rw [record, isExact]
  induction fields with
  | nil => rfl
  | cons field fields ih =>
      obtain ⟨key, v⟩ := field
      have hv : v.isExact := h (key, v) (by simp)
      have hfields := ih fun f hf => h f (by simp [hf])
      simp [fieldsAreExact, hv, hfields]

end SqlCompletion.Json.Value
