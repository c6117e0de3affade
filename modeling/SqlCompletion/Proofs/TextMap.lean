import Mathlib.Tactic
import SqlCompletion.TextMap

/-!
The laws of finite maps from texts.

* `TextMap.find?_insert`, `TextMap.find?_erase`: a written value is found under its key, an erased
  one is not, and no other key is touched;
* `TextMap.ofList_entries`: a map is the map of its entries;
* `TextMap.mem_entries_iff`: a key is found with the value that it has among the entries;
* `TextMap.ofList_of_perm`: a map is that of its entries in any order;
* `TextMap.entries_ofList_map`: and the values may be changed before or after the keys are sorted.
-/

namespace SqlCompletion.TextMap

variable {α : Type}

lemma lookup_cons_eq_ite (k other : String) (v : α) (rest : List (String × α)) :
    ((k, v) :: rest).lookup other = if other = k then some v else rest.lookup other := by
  rw [List.lookup_cons]
  by_cases h : other = k
  · simp [h]
  · have hk : (other == k) = false := by simpa using h
    rw [hk, if_neg h]

lemma lookup_insertEntry (key other : String) (value : α) (entries : List (String × α)) :
    (insertEntry key value entries).lookup other =
      if other = key then some value else entries.lookup other := by
  induction entries with
  | nil => rw [insertEntry, lookup_cons_eq_ite]
  | cons entry rest ih =>
      obtain ⟨k, v⟩ := entry
      rw [insertEntry]
      split
      · rw [lookup_cons_eq_ite]
      split
      · subst k
        by_cases h : other = key <;> simp [lookup_cons_eq_ite, h]
      · rename_i hne
        rw [lookup_cons_eq_ite, ih, lookup_cons_eq_ite]
        by_cases h : other = k
        · simp [h, Ne.symm hne]
        · simp only [if_neg h]

/-- A written value is found under its key, and every other key keeps what it had. -/
lemma find?_insert (m : TextMap α) (key other : String) (value : α) :
    (m.insert key value).find? other = if other = key then some value else m.find? other :=
  lookup_insertEntry key other value m.entries

/-- An erased key is not found, and every other key keeps what it had. -/
lemma find?_erase (m : TextMap α) (key other : String) :
    (m.erase key).find? other = if other = key then none else m.find? other := by
  obtain ⟨entries, increasing⟩ := m
  show (entries.filter fun e => e.1 != key).lookup other =
    if other = key then none else entries.lookup other
  clear increasing
  induction entries with
  | nil => simp
  | cons entry rest ih =>
      obtain ⟨k, v⟩ := entry
      by_cases hk : k = key
      · rw [List.filter_cons_of_neg (by simp [hk]), ih, lookup_cons_eq_ite]
        split_ifs with h h' <;> simp_all
      · rw [List.filter_cons_of_pos (by simp [hk]), lookup_cons_eq_ite, lookup_cons_eq_ite, ih]
        split_ifs with h h' <;> simp_all

/-- A key beyond all others is written at the end. -/
lemma insertEntry_of_forall_lt {key : String} {value : α} {entries : List (String × α)}
    (h : ∀ e ∈ entries, e.1 < key) : insertEntry key value entries = entries ++ [(key, value)] := by
  induction entries with
  | nil => rfl
  | cons entry rest ih =>
      have hlt : entry.1 < key := h entry (by simp)
      have hnot : ¬key < entry.1 := fun hgt => String.lt_irrefl _ (String.lt_trans hlt hgt)
      have hne : key ≠ entry.1 := by
        rintro rfl
        exact String.lt_irrefl _ hlt
      rw [insertEntry, if_neg hnot, if_neg hne, ih fun e he => h e (by simp [he]), List.cons_append]

/-- Entries in the order of their keys are written one after another. -/
lemma entries_foldl_insert (m : TextMap α) (more : List (String × α))
    (h : (m.entries ++ more).Pairwise fun a b => a.1 < b.1) :
    (more.foldl (fun m e => m.insert e.1 e.2) m).entries = m.entries ++ more := by
  induction more generalizing m with
  | nil => simp
  | cons e more ih =>
      have hlast : (m.insert e.1 e.2).entries = m.entries ++ [e] :=
        insertEntry_of_forall_lt fun a ha => (List.pairwise_append.mp h).2.2 a ha e (by simp)
      rw [List.foldl_cons, ih _ (by rw [hlast]; simpa using h), hlast, List.append_assoc]
      rfl

/-- A map is the map of its entries. -/
lemma ofList_entries (m : TextMap α) : ofList m.entries = m := by
  have h := entries_foldl_insert (empty : TextMap α) m.entries (by simpa [empty] using m.increasing)
  exact TextMap.ext (by simpa [ofList, empty] using h)

/-! ### Entries in any order -/

lemma nodup_keys (m : TextMap α) : (m.entries.map Prod.fst).Nodup :=
  List.pairwise_map.mpr (m.increasing.imp String.ne_of_lt)

/-- A key is found with the value that it has among the entries. -/
lemma mem_entries_iff {m : TextMap α} {key : String} {value : α} :
    (key, value) ∈ m.entries ↔ m.find? key = some value := by
  have hnodup := m.nodup_keys
  rw [find?]
  generalize m.entries = entries at hnodup ⊢
  induction entries with
  | nil => simp
  | cons entry rest ih =>
      obtain ⟨k, v⟩ := entry
      obtain ⟨hk, hrest⟩ := List.nodup_cons.mp hnodup
      rw [lookup_cons_eq_ite, List.mem_cons, Prod.mk.injEq]
      split_ifs with h
      · subst h
        have hnone : (key, value) ∉ rest := fun hmem => hk (List.mem_map.mpr ⟨_, hmem, rfl⟩)
        simp [hnone, eq_comm]
      · simp [h, ih hrest]

/-- Lists of distinct keys in order are the same when they have the same entries. -/
lemma entries_ext {m : TextMap α} {entries : List (String × α)}
    (hincreasing : entries.Pairwise fun a b => a.1 < b.1) (hperm : entries.Perm m.entries) :
    entries = m.entries :=
  hperm.eq_of_pairwise (fun _ _ _ _ hab hba => absurd hba (String.lt_asymm hab)) hincreasing
    m.increasing

/-- A new key is one entry more. -/
lemma perm_insertEntry {key : String} (value : α) {entries : List (String × α)}
    (h : key ∉ entries.map Prod.fst) :
    (insertEntry key value entries).Perm ((key, value) :: entries) := by
  induction entries with
  | nil => exact .refl _
  | cons entry rest ih =>
      obtain ⟨k, v⟩ := entry
      rw [List.map_cons, List.mem_cons, not_or] at h
      rw [insertEntry]
      split_ifs with hlt heq
      · exact .refl _
      · exact absurd heq h.1
      · exact ((ih h.2).cons (k, v)).trans (.swap ..)

lemma perm_foldl_insert (m : TextMap α) (more : List (String × α))
    (h : ((m.entries ++ more).map Prod.fst).Nodup) :
    (more.foldl (fun m e => m.insert e.1 e.2) m).entries.Perm (m.entries ++ more) := by
  induction more generalizing m with
  | nil => simp
  | cons e more ih =>
      have hmiddle : (m.entries ++ e :: more).Perm (e :: (m.entries ++ more)) := List.perm_middle
      have hnodup := (hmiddle.map Prod.fst).nodup h
      rw [List.map_cons, List.nodup_cons] at hnodup
      have hnew : e.1 ∉ m.entries.map Prod.fst := fun hmem =>
        hnodup.1 (List.mem_map.mpr (by
          obtain ⟨entry, hentry, heq⟩ := List.mem_map.mp hmem
          exact ⟨entry, List.mem_append_left more hentry, heq⟩))
      have hinsert : (m.insert e.1 e.2).entries.Perm (e :: m.entries) := perm_insertEntry e.2 hnew
      have hall := (hinsert.append_right more).trans hmiddle.symm
      rw [List.foldl_cons]
      exact (ih _ ((hall.map Prod.fst).nodup_iff.mpr h)).trans hall

/-- A map is that of its entries in any order. -/
lemma ofList_of_perm {m : TextMap α} {entries : List (String × α)} (h : entries.Perm m.entries) :
    ofList entries = m := by
  have hperm : (ofList entries).entries.Perm entries :=
    perm_foldl_insert empty entries ((h.map Prod.fst).nodup_iff.mpr m.nodup_keys)
  exact TextMap.ext (entries_ext (ofList entries).increasing (hperm.trans h))

/-! ### Other values -/

section Values

variable {β : Type} (g : α → β)

lemma insertEntry_map (key : String) (value : α) (entries : List (String × α)) :
    insertEntry key (g value) (entries.map fun e => (e.1, g e.2)) =
      (insertEntry key value entries).map fun e => (e.1, g e.2) := by
  induction entries with
  | nil => rfl
  | cons entry rest ih =>
      obtain ⟨k, v⟩ := entry
      rw [List.map_cons, insertEntry, insertEntry]
      split_ifs
      · rfl
      · rfl
      · exact congrArg ((k, g v) :: ·) ih

/-- Values may be changed before or after the keys are sorted. -/
lemma entries_ofList_map (entries : List (String × α)) :
    (ofList (entries.map fun e => (e.1, g e.2))).entries =
      (ofList entries).entries.map fun e => (e.1, g e.2) := by
  suffices ∀ (m : TextMap α) (m' : TextMap β), (m'.entries = m.entries.map fun e => (e.1, g e.2)) →
      ((entries.map fun e => (e.1, g e.2)).foldl (fun m e => m.insert e.1 e.2) m').entries =
        (entries.foldl (fun m e => m.insert e.1 e.2) m).entries.map fun e => (e.1, g e.2) from
    this empty empty rfl
  induction entries with
  | nil => exact fun _ _ h => h
  | cons e entries ih =>
      intro m m' h
      exact ih _ _ ((congrArg (insertEntry e.1 (g e.2)) h).trans (insertEntry_map g e.1 e.2 _))

end Values

end SqlCompletion.TextMap
