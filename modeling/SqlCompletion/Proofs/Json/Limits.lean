import SqlCompletion.Json.Limits
import SqlCompletion.Proofs.Json.Record

/-!
Values without numbers that stay within the limits of a text, level by level.

* `Value.IsModest`: a value of limited depth that is written and read back as it is;
* `Value.IsModest.text`, `Value.IsModest.array`, `Value.IsModest.record`: how such values are made;
* `Value.IsModest.withinLimits`: they are within the limits of a text that is taken as a whole.
-/

namespace SqlCompletion.Json.Value

/-- At most `n` arrays and objects stand inside one another, and every number and literal is read
back as it is written and taken wherever it stands. -/
structure IsModest (v : Value) (n : ℕ) : Prop where
  depth : v.depth ≤ n
  isPlain : v.isPlain
  isExact : v.isExact

namespace IsModest

variable {n : ℕ}

lemma text (s : String) : (text s).IsModest n :=
  ⟨Nat.zero_le n, rfl, rfl⟩

lemma array {vs : List Value} (h : ∀ v ∈ vs, v.IsModest n) : (Value.array vs).IsModest (n + 1) := by
  suffices depthOfItems vs ≤ n ∧ itemsArePlain vs ∧ itemsAreExact vs from
    ⟨Nat.succ_le_succ this.1, this.2.1, this.2.2⟩
  induction vs with
  | nil => exact ⟨Nat.zero_le n, rfl, rfl⟩
  | cons v vs ih =>
      obtain ⟨hdepth, hplain, hexact⟩ := h v (by simp)
      obtain ⟨ihdepth, ihplain, ihexact⟩ := ih fun w hw => h w (by simp [hw])
      refine ⟨max_le hdepth ihdepth, ?_, ?_⟩
      · simp [itemsArePlain, hplain, ihplain]
      · simp [itemsAreExact, hexact, ihexact]

lemma record {fields : List (String × Value)} (h : ∀ field ∈ fields, field.2.IsModest n) :
    (Value.record fields).IsModest (n + 1) := by
  suffices depthOfFields (keyed fields) ≤ n ∧ fieldsArePlain (keyed fields) ∧
      fieldsAreExact (keyed fields) from ⟨Nat.succ_le_succ this.1, this.2.1, this.2.2⟩
  induction fields with
  | nil => exact ⟨Nat.zero_le n, rfl, rfl⟩
  | cons field fields ih =>
      obtain ⟨key, v⟩ := field
      obtain ⟨hdepth, hplain, hexact⟩ := h (key, v) (by simp)
      obtain ⟨ihdepth, ihplain, ihexact⟩ := ih fun f hf => h f (by simp [hf])
      have hcons : keyed ((key, v) :: fields) = (some key, v) :: keyed fields := rfl
      rw [hcons]
      refine ⟨max_le hdepth ihdepth, ?_, ?_⟩
      · simp [fieldsArePlain, hplain, ihplain]
      · simp [fieldsAreExact, hexact, ihexact]

lemma withinLimits {v : Value} (h : v.IsModest n) (hn : n ≤ 127) : v.withinLimits := by
  simp [Value.withinLimits, h.isPlain, h.depth.trans hn]

end IsModest

end SqlCompletion.Json.Value
