import SqlCompletion.Proofs.Text.CaseFolding
import SqlCompletion.Schema.Basic

/-!
What names mean in a schema.

* `SameName`: names that differ at most in the case of ASCII letters;
* `IsFirst`: the first element of a list with a property;
* `Schema.NamesDatabase`, `Database.NamesTable`: what a name means alone;
* `Schema.Finds`, `Schema.findTable?_eq_some_iff`: and what the name of a table means with a hint.
-/

namespace SqlCompletion

open Text

/-! ### Names -/

/-- The names differ at most in the case of ASCII letters. -/
def SameName (a b : String) : Prop :=
  foldCase a = foldCase b

instance (a b : String) : Decidable (SameName a b) :=
  inferInstanceAs (Decidable (foldCase a = foldCase b))

lemma equalIgnoringCase_iff {a b : String} : equalIgnoringCase a b = true ↔ SameName a b := by
  rw [equalIgnoringCase_eq, beq_iff_eq, SameName]

/-- The first element of a list with a property. -/
def IsFirst {α : Type} (P : α → Prop) (xs : List α) (x : α) : Prop :=
  ∃ before after, xs = before ++ x :: after ∧ P x ∧ ∀ y ∈ before, ¬ P y

lemma find?_eq_some_iff_isFirst {α : Type} {p : α → Bool} {P : α → Prop}
    (h : ∀ x, p x = true ↔ P x) {xs : List α} {x : α} :
    xs.find? p = some x ↔ IsFirst P xs x := by
  rw [List.find?_eq_some_iff_append, h]
  constructor
  · rintro ⟨hx, before, after, rfl, hbefore⟩
    exact ⟨before, after, rfl, hx, fun y hy hP => by simpa [(h y).mpr hP] using hbefore y hy⟩
  · rintro ⟨before, after, rfl, hx, hbefore⟩
    refine ⟨hx, before, after, rfl, fun y hy => ?_⟩
    simpa using mt (h y).mp (hbefore y hy)

/-! ### What a name means in a schema -/

/-- The table that a name means in a database. -/
def Database.NamesTable (database : Database) (name : String) (table : Table) : Prop :=
  IsFirst (fun t => SameName t.name name) database.tables table

namespace Schema

/-- The database that a name means. -/
def NamesDatabase (schema : Schema) (name : String) (database : Database) : Prop :=
  IsFirst (fun d => SameName d.name name) schema.databases database

/-- The table that a name means, with its database: that of the database which the hint names, and
where this has none, or there is no such database, that of the first database which has one. -/
inductive Finds (schema : Schema) (hint : Option String) (name : String) :
    Database → Table → Prop
  | hinted {hinted database table} : hint = some hinted → schema.NamesDatabase hinted database →
      database.NamesTable name table → Finds schema hint name database table
  | elsewhere {database table} :
      (∀ hinted other table, hint = some hinted → schema.NamesDatabase hinted other →
        ¬ other.NamesTable name table) →
      IsFirst (fun d => ∃ table, Database.NamesTable d name table) schema.databases database →
      database.NamesTable name table → Finds schema hint name database table

lemma table?_eq_some_iff {database : Database} {name : String} {table : Table} :
    database.table? name = some table ↔ database.NamesTable name table :=
  find?_eq_some_iff_isFirst fun _ => equalIgnoringCase_iff

lemma database?_eq_some_iff {schema : Schema} {name : String} {database : Database} :
    schema.database? name = some database ↔ schema.NamesDatabase name database :=
  find?_eq_some_iff_isFirst fun _ => equalIgnoringCase_iff

lemma tableIn?_eq_some_iff {database found : Database} {name : String} {table : Table} :
    tableIn? name database = some (found, table) ↔
      found = database ∧ database.NamesTable name table := by
  rw [tableIn?, Option.map_eq_some_iff]
  constructor
  · rintro ⟨t, ht, heq⟩
    cases heq
    exact ⟨rfl, table?_eq_some_iff.mp ht⟩
  · rintro ⟨rfl, htable⟩
    exact ⟨table, table?_eq_some_iff.mpr htable, rfl⟩

lemma tableIn?_eq_none_iff {database : Database} {name : String} :
    tableIn? name database = none ↔ ¬ ∃ table, database.NamesTable name table := by
  simp only [Option.eq_none_iff_forall_ne_some, ne_eq, Prod.forall, tableIn?_eq_some_iff,
    not_exists, not_and]
  exact ⟨fun h table => h database table rfl, fun h _ table _ => h table⟩

lemma tableIn?_eq_none_iff_forall {database : Database} {name : String} :
    tableIn? name database = none ↔ ∀ t ∈ database.tables, ¬ SameName t.name name := by
  rw [tableIn?, Option.map_eq_none_iff, Database.table?, List.find?_eq_none]
  simp only [equalIgnoringCase_iff]

section Finds

variable {schema : Schema} {hint : Option String} {name : String} {database : Database}
  {table : Table}

/-- The table in the database that the hint names. -/
lemma hinted_eq_some_iff :
    (hint.bind schema.database?).bind (tableIn? name) = some (database, table) ↔
      ∃ hinted, hint = some hinted ∧ schema.NamesDatabase hinted database ∧
        database.NamesTable name table := by
  simp only [Option.bind_eq_some_iff, tableIn?_eq_some_iff, database?_eq_some_iff]
  constructor
  · rintro ⟨_, ⟨hinted, hhint, hdatabase⟩, rfl, htable⟩
    exact ⟨hinted, hhint, hdatabase, htable⟩
  · rintro ⟨hinted, hhint, hdatabase, htable⟩
    exact ⟨database, ⟨hinted, hhint, hdatabase⟩, rfl, htable⟩

/-- The table in the first database that has one. -/
lemma findSome?_eq_some_iff :
    schema.databases.findSome? (tableIn? name) = some (database, table) ↔
      IsFirst (fun d => ∃ table, Database.NamesTable d name table) schema.databases database ∧
        database.NamesTable name table := by
  rw [List.findSome?_eq_some_iff]
  simp only [tableIn?_eq_some_iff, tableIn?_eq_none_iff]
  constructor
  · rintro ⟨before, _, after, hsplit, ⟨rfl, htable⟩, hbefore⟩
    exact ⟨⟨before, after, hsplit, ⟨table, htable⟩, hbefore⟩, htable⟩
  · rintro ⟨⟨before, after, hsplit, -, hbefore⟩, htable⟩
    exact ⟨before, database, after, hsplit, ⟨rfl, htable⟩, hbefore⟩

lemma findTable?_eq_some_iff :
    schema.findTable? hint name = some (database, table) ↔
      schema.Finds hint name database table := by
  rw [findTable?, Option.or_eq_some_iff, hinted_eq_some_iff, findSome?_eq_some_iff]
  constructor
  · rintro (⟨hinted, hhint, hdatabase, htable⟩ | ⟨hnone, hfirst, htable⟩)
    · exact .hinted hhint hdatabase htable
    · refine .elsewhere (fun hinted other table hhint hother htable => ?_) hfirst htable
      have hsome := hinted_eq_some_iff.mpr ⟨hinted, hhint, hother, htable⟩
      cases hnone.symm.trans hsome
  · rintro (⟨hhint, hdatabase, htable⟩ | ⟨hnot, hfirst, htable⟩)
    · exact .inl ⟨_, hhint, hdatabase, htable⟩
    · refine .inr ⟨?_, hfirst, htable⟩
      refine Option.eq_none_iff_forall_ne_some.mpr fun ⟨other, table⟩ hsome => ?_
      obtain ⟨hinted, hhint, hother, htable⟩ := hinted_eq_some_iff.mp hsome
      exact hnot hinted other table hhint hother htable

end Finds

end Schema

end SqlCompletion
