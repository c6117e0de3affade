import SqlCompletion.Error
import SqlCompletion.TextMap

/-!
Stores of texts by key, in which usage records are kept.

* `Store`: what a store offers;
* `MemoryStore`: entries in memory, which never fails;
* `UnavailableStore`: a store that always fails.
-/

namespace SqlCompletion

/-- A store with states in `σ`. Both operations may fail, and either may change the state. -/
class Store (σ : Type) where
  /-- The text under a key, if there is one. -/
  read : String → σ → Except Error (Option String) × σ
  /-- Puts a text under a key. -/
  write : String → String → σ → Except Error Unit × σ

/-- A store in memory. -/
structure MemoryStore where
  entries : TextMap String := .empty
  deriving DecidableEq, Inhabited

instance : Store MemoryStore where
  read key store := (.ok (store.entries.find? key), store)
  write key text store := (.ok (), ⟨store.entries.insert key text⟩)

/-- A store that is out of reach. -/
structure UnavailableStore where
  deriving DecidableEq, Inhabited

instance : Store UnavailableStore where
  read key store := (.error (.store ("read " ++ key ++ ": unavailable")), store)
  write key _ store := (.error (.store ("write " ++ key ++ ": unavailable")), store)

end SqlCompletion
