/-!
Finite maps from texts, kept in the order of the UTF-8 bytes of their keys, so that equal maps have
equal entries.

* `TextMap`: the entries, with strictly increasing keys;
* `TextMap.find?`, `TextMap.insert`, `TextMap.erase`: access by key;
* `TextMap.ofList`: the map of some entries, in which the last entry of a key is kept.
-/

namespace SqlCompletion

/-- A finite map from texts. -/
@[ext] structure TextMap (α : Type) where
  entries : List (String × α)
  increasing : entries.Pairwise fun a b => a.1 < b.1
  deriving DecidableEq

namespace TextMap

variable {α : Type}

/-- The map without entries. -/
def empty : TextMap α :=
  ⟨[], .nil⟩

instance : Inhabited (TextMap α) :=
  ⟨empty⟩

/-- How many entries a map has. -/
def size (m : TextMap α) : Nat :=
  m.entries.length

/-- The value of a key. -/
def find? (key : String) (m : TextMap α) : Option α :=
  m.entries.lookup key

/-- The entries with a key's value written in its place. -/
def insertEntry (key : String) (value : α) : List (String × α) → List (String × α)
  | [] => [(key, value)]
  | (k, v) :: rest =>
    if key < k then (key, value) :: (k, v) :: rest
    else if key = k then (key, value) :: rest
    else (k, v) :: insertEntry key value rest

/-- A written entry has the given key, or stood there before. -/
theorem mem_insertEntry {key : String} {value : α} {entries : List (String × α)}
    {e : String × α} (h : e ∈ insertEntry key value entries) : e.1 = key ∨ e ∈ entries := by
  induction entries with
  | nil => simp_all [insertEntry]
  | cons entry rest ih =>
    obtain ⟨k, v⟩ := entry
    rw [insertEntry] at h
    split at h
    · simp only [List.mem_cons] at h ⊢
      rcases h with rfl | h
      · exact .inl rfl
      · exact .inr h
    · split at h
      · simp only [List.mem_cons] at h ⊢
        rcases h with rfl | h
        · exact .inl rfl
        · exact .inr (.inr h)
      · simp only [List.mem_cons] at h ⊢
        rcases h with h | h
        · exact .inr (.inl h)
        · exact (ih h).imp id .inr

theorem pairwise_insertEntry {key : String} {value : α} {entries : List (String × α)}
    (h : entries.Pairwise fun a b => a.1 < b.1) :
    (insertEntry key value entries).Pairwise fun a b => a.1 < b.1 := by
  induction entries with
  | nil => simp [insertEntry]
  | cons entry rest ih =>
    obtain ⟨k, v⟩ := entry
    have hk := List.pairwise_cons.1 h
    rw [insertEntry]
    split
    · rename_i hlt
      refine List.pairwise_cons.2 ⟨?_, h⟩
      intro e he
      rcases List.mem_cons.1 he with rfl | he
      · exact hlt
      · exact String.lt_trans hlt (hk.1 e he)
    · split
      · rename_i heq
        exact List.pairwise_cons.2 ⟨fun e he => heq ▸ hk.1 e he, hk.2⟩
      · rename_i hlt hne
        refine List.pairwise_cons.2 ⟨fun e he => ?_, ih hk.2⟩
        rcases mem_insertEntry he with he | he
        · rw [he]
          exact Std.lt_of_le_of_ne (Std.not_lt.1 hlt) (Ne.symm hne)
        · exact hk.1 e he

/-- Writes a value under a key. -/
def insert (key : String) (value : α) (m : TextMap α) : TextMap α :=
  ⟨insertEntry key value m.entries, pairwise_insertEntry m.increasing⟩

/-- Removes a key with its value. -/
def erase (key : String) (m : TextMap α) : TextMap α :=
  ⟨m.entries.filter fun e => e.1 != key, m.increasing.filter _⟩

/-- The map of some entries; of several with one key the last is kept. -/
def ofList (entries : List (String × α)) : TextMap α :=
  entries.foldl (fun m e => m.insert e.1 e.2) empty

end TextMap

end SqlCompletion
