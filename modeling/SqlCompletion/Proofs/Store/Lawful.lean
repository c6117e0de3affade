import SqlCompletion.Proofs.Store.Directory
import SqlCompletion.Proofs.TextMap
import SqlCompletion.Store.Basic

/-!
Stores that keep texts as a map does, while any operation may fail.

* `LawfulStore`: what is read is what is kept, or nothing; what is written is kept, and no other
  text is touched;
* `UnreliableStore`: a map each of whose operations fails or not as was laid down for it.

A store in memory, an unreliable store and a store in a directory are lawful.
-/

namespace SqlCompletion

/-- A store that keeps texts by key. Any operation may fail, and a write that fails may leave
anything under its own key. -/
class LawfulStore (σ : Type) [Store σ] where
  /-- The text that is kept under a key. -/
  kept? : String → σ → Option String
  /-- A text is read as it is kept, or not at all. -/
  read_cases : ∀ key store, (Store.read key store).1 = .ok (kept? key store) ∨
    ∃ e, (Store.read key store).1 = .error e
  kept?_read : ∀ key other store, kept? other (Store.read key store).2 = kept? other store
  kept?_write_self : ∀ key text store, (Store.write key text store).1 = .ok () →
    kept? key (Store.write key text store).2 = some text
  kept?_write_of_ne : ∀ key other text store, other ≠ key →
    kept? other (Store.write key text store).2 = kept? other store

open LawfulStore

instance : LawfulStore MemoryStore where
  kept? key store := store.entries.find? key
  read_cases _ _ := .inl rfl
  kept?_read _ _ _ := rfl
  kept?_write_self key text store _ :=
    (TextMap.find?_insert store.entries key key text).trans (if_pos rfl)
  kept?_write_of_ne key other text store h :=
    (TextMap.find?_insert store.entries key other text).trans (if_neg h)

/-! ### A map whose operations fail as laid down -/

/-- A store in memory whose operations may fail. -/
structure UnreliableStore where
  entries : TextMap String := .empty
  /-- How each of the operations to come fails, if it does. -/
  failures : ℕ → Option Error

namespace UnreliableStore

/-- The store when one more operation is over. -/
def next (store : UnreliableStore) : UnreliableStore :=
  { store with failures := fun n => store.failures (n + 1) }

instance : Store UnreliableStore where
  read key store :=
    match store.failures 0 with
    | some e => (.error e, store.next)
    | none => (.ok (store.entries.find? key), store.next)
  write key text store :=
    match store.failures 0 with
    | some e => (.error e, store.next)
    | none => (.ok (), { store.next with entries := store.entries.insert key text })

instance : LawfulStore UnreliableStore where
  kept? key store := store.entries.find? key
  read_cases key store := by
    simp only [Store.read]
    cases store.failures 0 with
    | none => exact .inl rfl
    | some e => exact .inr ⟨e, rfl⟩
  kept?_read key other store := by
    simp only [Store.read]
    cases store.failures 0 <;> rfl
  kept?_write_self key text store h := by
    simp only [Store.write] at h ⊢
    cases hfailure : store.failures 0 with
    | none => exact (TextMap.find?_insert store.entries key key text).trans (if_pos rfl)
    | some e =>
        rw [hfailure] at h
        cases h
  kept?_write_of_ne key other text store h := by
    simp only [Store.write]
    cases store.failures 0 with
    | none => exact (TextMap.find?_insert store.entries key other text).trans (if_neg h)
    | some e => rfl

end UnreliableStore

/-! ### A directory -/

namespace DirectoryStore

/-- The text that is got for a key, if one is. -/
def text? (key : String) (store : DirectoryStore) : Option String :=
  match store.get key with
  | .ok text => text
  | .error _ => none

lemma text?_eq_some_iff {key text : String} {store : DirectoryStore} :
    store.text? key = some text ↔ store.get key = .ok (some text) := by
  rw [text?]
  cases store.get key <;> simp

instance : LawfulStore DirectoryStore where
  kept? := text?
  read_cases key store := by
    change store.get key = _ ∨ ∃ e, store.get key = .error e
    rw [text?]
    cases store.get key with
    | ok text => exact .inl rfl
    | error e => exact .inr ⟨e, rfl⟩
  kept?_read _ _ _ := rfl
  kept?_write_self key text store h := by
    change (store.set key text).1 = .ok () at h
    change (store.set key text).2.text? key = _
    have hset : store.set key text = (.ok (), (store.set key text).2) := Prod.ext h rfl
    rw [text?_eq_some_iff, get_of_set hset, if_pos rfl]
  kept?_write_of_ne key other text store hne := by
    change (store.set key text).2.text? other = _
    refine Option.ext fun found => ?_
    rw [text?_eq_some_iff, text?_eq_some_iff]
    cases h : (store.set key text).1 with
    | ok =>
        have hset : store.set key text = (.ok (), (store.set key text).2) := Prod.ext h rfl
        rw [get_of_set hset, if_neg hne]
    | error e => exact get_of_leavesBehind (leavesBehind_of_set (Prod.ext h rfl)) other found

end DirectoryStore

end SqlCompletion
