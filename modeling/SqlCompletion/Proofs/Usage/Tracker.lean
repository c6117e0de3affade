import Mathlib.Tactic
import SqlCompletion.Proofs.TextMap
import SqlCompletion.Usage.Tracker

/-!
What each operation of a tracker does to its counts, whatever the store is.

* `Category.label_eq_of_key_eq`, `Category.category_eq_of_key_eq`: a key tells the label and the
  category it was made from;
* `Tracker.edit_of_find?_eq_none`, `Tracker.edit_of_find?_eq_some`: an edit is counted for the first
  pending suggestion that it may be the insertion of, and otherwise changes nothing;
* `Tracker.exists_of_edit`: what is known of the suggestion whose key an edit returns;
* `Tracker.count_persist`: persisting changes no count;
* `UsageRecord.count_record`: a use of one key is counted for this key alone.
-/

namespace SqlCompletion

/-! ### Keys -/

namespace Category

lemma colon_notMem_name (category : Category) : ':' ∉ category.name.toList := by
  cases category <;> decide

/-- The label of a key is what follows its first colon. -/
lemma dropWhile_key (category : Category) (label : String) :
    (category.key label).toList.dropWhile (· ≠ ':') = ':' :: label.toList := by
  have hname : ∀ c ∈ category.name.toList, decide (c ≠ ':') = true := by
    intro c hc
    simpa using fun h : c = ':' => category.colon_notMem_name (h ▸ hc)
  rw [key, String.toList_append, String.toList_append, List.append_assoc,
    List.dropWhile_append_of_pos hname]
  rfl

/-- A key tells the label it was made from. -/
lemma label_eq_of_key_eq {c c' : Category} {label label' : String}
    (h : c.key label = c'.key label') : label = label' := by
  have hlabels := c.dropWhile_key label
  rw [h, dropWhile_key, List.cons_eq_cons] at hlabels
  exact String.toList_injective hlabels.2.symm

/-- It tells the category too. -/
lemma category_eq_of_key_eq {c c' : Category} {label label' : String}
    (h : c.key label = c'.key label') : c = c' := by
  have hkey := congrArg String.toList h
  rw [label_eq_of_key_eq h] at hkey
  simp only [key, String.toList_append, List.append_assoc, List.append_left_inj] at hkey
  have hname := congrArg ofName? (String.toList_injective hkey)
  rw [ofName?_name, ofName?_name] at hname
  exact Option.some.inj hname

end Category

/-! ### Operations -/

/-- Different connections are stored under different keys. -/
lemma storageKey_injective : Function.Injective storageKey := by
  intro a b h
  have hlist := congrArg String.toList h
  simp only [storageKey, String.toList_append] at hlist
  exact String.toList_injective (List.append_cancel_left hlist)

lemma UsageRecord.count_record (r : UsageRecord) (key other : String) (category : Category)
    (now : Int64) :
    (r.record key category now).count other =
      if other = key then r.count other + 1 else r.count other := by
  rw [count, record, TextMap.find?_insert]
  split
  · subst other
    rfl
  · rfl

namespace Tracker

variable {σ : Type}

/-- The tracker with a pending suggestion counted once, and no longer pending. -/
def counted (p : Pending) (now : Int64) (tracker : Tracker σ) : Tracker σ :=
  { tracker with
    pending := tracker.pending.filter fun q => q.key != p.key
    usage := tracker.usage.record p.key p.category now }

variable [Store σ]

@[simp] lemma pending_persist (tracker : Tracker σ) (now : Int64) :
    (tracker.persist now).pending = tracker.pending := by
  rw [persist]
  cases tracker.connection <;> rfl

lemma edit_of_find?_eq_none {tracker : Tracker σ} {edit : Edit} {document : String} {now : Int64}
    (h : tracker.pending.find? (tracker.accepts edit document now) = none) :
    tracker.edit edit document now = (none, tracker) := by
  simp only [Tracker.edit, h]

lemma edit_of_find?_eq_some {tracker : Tracker σ} {edit : Edit} {document : String} {now : Int64}
    {p : Pending} (h : tracker.pending.find? (tracker.accepts edit document now) = some p) :
    tracker.edit edit document now = (some p.key, (tracker.counted p now).persist now) := by
  simp only [Tracker.edit, h, counted]

/-- An edit that returns no key leaves everything pending. -/
lemma pending_of_edit_eq_none {tracker : Tracker σ} {edit : Edit} {document : String} {now : Int64}
    (h : (tracker.edit edit document now).1 = none) :
    (tracker.edit edit document now).2.pending = tracker.pending := by
  cases hfind : tracker.pending.find? (tracker.accepts edit document now) with
  | none => rw [edit_of_find?_eq_none hfind]
  | some p =>
      rw [edit_of_find?_eq_some hfind] at h
      cases h

/-- The key that an edit returns is that of a suggestion which was pending and had not expired.
Nothing with this key is pending after it. -/
lemma exists_of_edit {tracker : Tracker σ} {edit : Edit} {document key : String} {now : Int64}
    (h : (tracker.edit edit document now).1 = some key) :
    ∃ p ∈ tracker.pending, p.key = key ∧ p.isExpired now tracker.window = false ∧
      (tracker.edit edit document now).2.pending = tracker.pending.filter (·.key != key) := by
  cases hfind : tracker.pending.find? (tracker.accepts edit document now) with
  | none =>
      rw [edit_of_find?_eq_none hfind] at h
      cases h
  | some p =>
      rw [edit_of_find?_eq_some hfind] at h ⊢
      obtain rfl : p.key = key := Option.some.inj h
      have haccepts := List.find?_some hfind
      simp only [accepts, Bool.and_eq_true, Bool.not_eq_true'] at haccepts
      exact ⟨p, List.mem_of_find?_eq_some hfind, rfl, haccepts.1.1, pending_persist _ now⟩

end Tracker

end SqlCompletion
