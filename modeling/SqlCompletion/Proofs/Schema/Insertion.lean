import Mathlib.Data.List.TakeWhile
import SqlCompletion.Proofs.Schema.Lookup

/-!
Tables that are written into a schema and looked up again.

A write goes by exact names, while a look-up ignores the case of ASCII letters and takes the first
name that fits. So a table that was written may be hidden by one that was there before it.

* `putBy_eq`: what a write leaves, what it changes and what it appends;
* `Schema.named`, `Schema.databasesBefore`, `Database.tablesBefore`: where a table is written, and
  what stands before it;
* `Schema.findTable?_of_split`, `Schema.exists_findTable?_of_split`: a look-up passes over the
  databases before another one, or stops at one of them;
* `Schema.FindsWritten`, `Schema.findsWritten_iff`: the table that was written is found unless it is
  hidden;
* `Schema.not_findsWritten`: in each of the ways in which it may be.
-/

namespace SqlCompletion

open Text

/-- A write leaves what stands before the first element that passes the test, and changes this
element, or appends another where there is none. -/
lemma putBy_eq {α : Type} (test : α → Bool) (change : α → α) (fresh : α) (xs : List α) :
    putBy test change fresh xs =
      xs.takeWhile (fun x => !test x) ++
        ((xs.find? test).map change).getD fresh :: (xs.dropWhile fun x => !test x).tail := by
  induction xs with
  | nil => rfl
  | cons x xs ih =>
      rw [putBy, List.takeWhile_cons, List.dropWhile_cons, List.find?_cons]
      cases test x with
      | true => rfl
      | false => exact congrArg (x :: ·) ih

namespace Database

/-- The tables before the one with exactly this name; all of them if there is none. -/
def tablesBefore (name : String) (database : Database) : List Table :=
  database.tables.takeWhile (·.name != name)

/-- A table is written after those before its name. -/
lemma exists_tables_insertTable (table : Table) (database : Database) :
    ∃ after, (database.insertTable table).tables =
      database.tablesBefore table.name ++ table :: after := by
  refine ⟨(database.tables.dropWhile (·.name != table.name)).tail, ?_⟩
  have hwritten : ((database.tables.find? (·.name == table.name)).map fun _ => table).getD table =
      table := by
    cases database.tables.find? (·.name == table.name) <;> rfl
  rw [insertTable, putBy_eq, hwritten]
  rfl

end Database

namespace Schema

/-- The database with exactly this name, which is empty if there is none. -/
def named (name : String) (schema : Schema) : Database :=
  (schema.databases.find? (·.name == name)).getD ⟨name, []⟩

/-- The databases before the one with exactly this name; all of them if there is none. -/
def databasesBefore (name : String) (schema : Schema) : List Database :=
  schema.databases.takeWhile (·.name != name)

lemma name_named (name : String) (schema : Schema) : (schema.named name).name = name := by
  rw [named]
  cases hfind : schema.databases.find? (·.name == name) with
  | none => rfl
  | some database => simpa using List.find?_some hfind

lemma name_ne_of_mem_databasesBefore {name : String} {schema : Schema} {database : Database}
    (h : database ∈ schema.databasesBefore name) : database.name ≠ name := by
  simpa using List.mem_takeWhile_imp h

/-- A table is written into the database with exactly the name, after the databases before it. -/
lemma exists_databases_insertTable (name : String) (table : Table) (schema : Schema) :
    ∃ after, (schema.insertTable name table).databases =
      schema.databasesBefore name ++ (schema.named name).insertTable table :: after := by
  refine ⟨(schema.databases.dropWhile (·.name != name)).tail, ?_⟩
  have hwritten : ((schema.databases.find? (·.name == name)).map (·.insertTable table)).getD
      ⟨name, [table]⟩ = (schema.named name).insertTable table := by
    rw [named]
    cases schema.databases.find? (·.name == name) <;> rfl
  rw [insertTable, putBy_eq, hwritten]
  rfl

/-! ### Look-ups past other databases -/

section Split

variable {schema : Schema} {before after : List Database} {target : Database}
  {hint name : String}

/-- The databases before another one are passed over where none of them has the name of the hint, or
none has the table. -/
lemma findTable?_of_split (hsplit : schema.databases = before ++ target :: after)
    (hhint : SameName target.name hint) (htable : tableIn? name target ≠ none)
    (hbefore : (∀ d ∈ before, ¬ SameName d.name hint) ∨
      ∀ d ∈ before, ∀ t ∈ d.tables, ¬ SameName t.name name) :
    schema.findTable? (some hint) name = tableIn? name target := by
  obtain ⟨found, hfound⟩ := Option.ne_none_iff_exists'.mp htable
  have hdatabase : schema.database? hint =
      (before.find? fun d => equalIgnoringCase d.name hint).or (some target) := by
    rw [database?, hsplit, List.find?_append, List.find?_cons, equalIgnoringCase_iff.mpr hhint]
  rw [findTable?, Option.bind_some, hdatabase]
  cases hfirst : before.find? fun d => equalIgnoringCase d.name hint with
  | none => rw [Option.none_or, Option.bind_some, hfound, Option.some_or]
  | some first =>
      -- a database before has the name of the hint, so none has the table
      have hmem := List.mem_of_find?_eq_some hfirst
      have hname := List.find?_some (p := fun d : Database => equalIgnoringCase d.name hint) hfirst
      have hnone := hbefore.resolve_left fun h =>
        h first hmem (equalIgnoringCase_iff.mp hname)
      have hskip : before.findSome? (tableIn? name) = none :=
        List.findSome?_eq_none_iff.mpr fun d hd => tableIn?_eq_none_iff_forall.mpr (hnone d hd)
      rw [Option.some_or, Option.bind_some, tableIn?_eq_none_iff_forall.mpr (hnone first hmem),
        Option.none_or, hsplit, List.findSome?_append, hskip, Option.none_or,
        List.findSome?_cons, hfound]

/-- A look-up stops at one of them where one has the name of the hint and one has the table. -/
lemma exists_findTable?_of_split (hsplit : schema.databases = before ++ target :: after)
    (hhint : ∃ d ∈ before, SameName d.name hint)
    (htable : ∃ d ∈ before, ∃ t ∈ d.tables, SameName t.name name) :
    ∃ d ∈ before, ∃ t, schema.findTable? (some hint) name = some (d, t) := by
  obtain ⟨d, hd, hname⟩ := hhint
  have hsome : (before.find? fun d => equalIgnoringCase d.name hint).isSome :=
    List.find?_isSome.mpr ⟨d, hd, equalIgnoringCase_iff.mpr hname⟩
  obtain ⟨first, hfirst⟩ := Option.isSome_iff_exists.mp hsome
  have hdatabase : schema.database? hint = some first := by
    rw [database?, hsplit, List.find?_append, hfirst, Option.some_or]
  rw [findTable?, Option.bind_some, hdatabase, Option.bind_some]
  cases hin : tableIn? name first with
  | some found =>
      obtain ⟨database, t⟩ := found
      obtain ⟨rfl, -⟩ := tableIn?_eq_some_iff.mp hin
      exact ⟨database, List.mem_of_find?_eq_some hfirst, t, rfl⟩
  | none =>
      rw [Option.none_or, hsplit, List.findSome?_append]
      cases hsome : before.findSome? (tableIn? name) with
      | some found =>
          obtain ⟨d', hd', hin'⟩ := List.exists_of_findSome?_eq_some hsome
          obtain ⟨database, t⟩ := found
          obtain ⟨rfl, -⟩ := tableIn?_eq_some_iff.mp hin'
          exact ⟨database, hd', t, rfl⟩
      | none =>
          obtain ⟨d', hd', t, ht, hsame⟩ := htable
          have hnone := List.findSome?_eq_none_iff.mp hsome d' hd'
          exact absurd hsame (tableIn?_eq_none_iff_forall.mp hnone t ht)

end Split

/-! ### Look-ups of what was written -/

/-- A table that was just written is found again by its name and the name of its database: exactly
this table, in the database with exactly this name. -/
def FindsWritten (schema : Schema) (name : String) (table : Table) : Prop :=
  ∃ database, (schema.insertTable name table).findTable? (some name) table.name =
    some (database, table) ∧ database.name = name

lemma FindsWritten.found {schema : Schema} {name : String} {table : Table}
    (h : schema.FindsWritten name table) :
    ((schema.insertTable name table).findTable? (some name) table.name).map (·.2) =
      some table := by
  obtain ⟨database, hfound, -⟩ := h
  rw [hfound]
  rfl

/-- In the database into which a table was written its name means a table, which is the one written
if no name before it fits. -/
lemma table?_insertTable (table : Table) (database : Database) :
    ∃ found, tableIn? table.name (database.insertTable table) =
        some (database.insertTable table, found) ∧
      (found = table ↔
        ∀ t ∈ database.tablesBefore table.name, ¬ SameName t.name table.name) := by
  obtain ⟨after, htables⟩ := database.exists_tables_insertTable table
  have hlast : (table :: after).find? (fun t => equalIgnoringCase t.name table.name) =
      some table := List.find?_cons_of_pos (equalIgnoringCase_iff.mpr rfl)
  rw [tableIn?, Database.table?, htables, List.find?_append, hlast]
  cases hfirst : (database.tablesBefore table.name).find?
      fun t => equalIgnoringCase t.name table.name with
  | none =>
      refine ⟨table, rfl, iff_of_true rfl fun t ht hsame => ?_⟩
      exact List.find?_eq_none.mp hfirst t ht (equalIgnoringCase_iff.mpr hsame)
  | some first =>
      have hmem := List.mem_of_find?_eq_some hfirst
      refine ⟨first, rfl, iff_of_false ?_ fun h => ?_⟩
      · rintro rfl
        simpa using List.mem_takeWhile_imp hmem
      · have hname :=
          List.find?_some (p := fun t : Table => equalIgnoringCase t.name table.name) hfirst
        exact h first hmem (equalIgnoringCase_iff.mp hname)

/-- **What is written and what is found.** A table that was just written into a database is found by
the two names, in the database with exactly this name, if and only if two things hold. No table
before it in its database has its name up to the case of ASCII letters. And among the databases
before its own, none has the name of its database up to case, or none has a table with its name up
to case. -/
theorem findsWritten_iff (schema : Schema) (name : String) (table : Table) :
    schema.FindsWritten name table ↔
      (∀ t ∈ (schema.named name).tablesBefore table.name, ¬ SameName t.name table.name) ∧
        ((∀ d ∈ schema.databasesBefore name, ¬ SameName d.name name) ∨
          ∀ d ∈ schema.databasesBefore name, ∀ t ∈ d.tables, ¬ SameName t.name table.name) := by
  obtain ⟨after, hsplit⟩ := schema.exists_databases_insertTable name table
  obtain ⟨found, hfound, hwritten⟩ := table?_insertTable table (schema.named name)
  have hname : ((schema.named name).insertTable table).name = name := schema.name_named name
  by_cases hbefore : (∀ d ∈ schema.databasesBefore name, ¬ SameName d.name name) ∨
      ∀ d ∈ schema.databasesBefore name, ∀ t ∈ d.tables, ¬ SameName t.name table.name
  · have hsame : SameName ((schema.named name).insertTable table).name name := by
      rw [hname]
      rfl
    rw [FindsWritten, findTable?_of_split hsplit hsame (by simp [hfound]) hbefore, hfound,
      ← hwritten]
    constructor
    · rintro ⟨database, heq, -⟩
      cases heq
      exact ⟨rfl, hbefore⟩
    · rintro ⟨rfl, -⟩
      exact ⟨_, rfl, hname⟩
  · refine iff_of_false ?_ fun h => hbefore h.2
    simp only [not_or, not_forall, not_not, exists_prop] at hbefore
    obtain ⟨d, hd, t, hstop⟩ := exists_findTable?_of_split hsplit hbefore.1 hbefore.2
    rintro ⟨database, heq, hdatabase⟩
    rw [hstop] at heq
    cases heq
    exact name_ne_of_mem_databasesBefore hd hdatabase

/-- A table may be hidden by one of its database, by one of the database that the hint names
instead, and by one of a third database where this has none. -/
theorem not_findsWritten :
    let orders : Table := ⟨"orders", [⟨"id", "int"⟩]⟩
    let other : Table := ⟨"Orders", []⟩
    ¬ (Schema.insertTable "shop" other {}).FindsWritten "shop" orders ∧
      ¬ (Schema.insertTable "Shop" other {}).FindsWritten "shop" orders ∧
      ¬ ((Schema.insertDatabase ⟨"Shop", []⟩ {}).insertTable "crm" other).FindsWritten "shop"
        orders := by
  refine ⟨fun h => ?_, fun h => ?_, fun h => ?_⟩
  · exact absurd h.found (by decide)
  · exact absurd h.found (by decide)
  · exact absurd h.found (by decide)

end Schema

end SqlCompletion
