import SqlCompletion.Proofs.Text.CaseFolding
import SqlCompletion.Suggestion.Candidates

/-!
When two references have the same columns.

* `findTable?_congr`: the tables that are found do not depend on the case of names;
* `TableReference.SameTable`: two references name the same table of the same database;
* `TableReference.SameTable.columnsOfReference_eq`: then they have the same columns in every schema;
* `TableReference.exists_schema_of_not_sameTable`: otherwise a schema tells them apart.
-/

namespace SqlCompletion

open Text

/-! ### Names without case -/

lemma foldCase_append_ne (a : String) {b : String} (h : b ≠ "") :
    foldCase (a ++ b) ≠ foldCase a := by
  intro heq
  have hlength := congrArg List.length heq
  simp [foldCase] at hlength
  exact h hlength

/-- The tables that are found do not depend on the case of names. -/
lemma findTable?_congr {hint hint' : Option String} {table table' : String}
    (hhint : hint.map foldCase = hint'.map foldCase) (htable : foldCase table = foldCase table')
    (schema : Schema) : schema.findTable? hint table = schema.findTable? hint' table' := by
  have htableIn : Schema.tableIn? table = Schema.tableIn? table' := by
    funext database
    simp only [Schema.tableIn?, Database.table?, equalIgnoringCase_eq, htable]
  have hdatabase : hint.bind schema.database? = hint'.bind schema.database? := by
    cases hint <;> cases hint' <;> simp_all [Schema.database?, equalIgnoringCase_eq]
  rw [Schema.findTable?, Schema.findTable?, htableIn, hdatabase]

namespace TableReference

/-- The references name the same table of the same database, ignoring the case of ASCII letters. -/
structure SameTable (r s : TableReference) : Prop where
  table : foldCase r.table = foldCase s.table
  database : r.database.map foldCase = s.database.map foldCase

instance (r s : TableReference) : Decidable (SameTable r s) :=
  decidable_of_iff (foldCase r.table = foldCase s.table ∧
    r.database.map foldCase = s.database.map foldCase) ⟨fun h => ⟨h.1, h.2⟩, fun h => ⟨h.1, h.2⟩⟩

lemma SameTable.refl (r : TableReference) : SameTable r r := ⟨rfl, rfl⟩

lemma SameTable.columnsOfReference_eq {r s : TableReference} (h : SameTable r s)
    (context : Context) (schema : Schema) :
    columnsOfReference context schema r = columnsOfReference context schema s := by
  have hhint : (r.database.or context.selectedDatabase).map foldCase =
      (s.database.or context.selectedDatabase).map foldCase := by
    have hdatabase := h.database
    cases hr : r.database <;> cases hs : s.database <;> simp_all
  rw [columnsOfReference, columnsOfReference, findTable?_congr hhint h.table]

/-! ### Schemas that tell references apart -/

/-- The suggestion of a column. -/
def columnNamed (name : String) : Suggestion :=
  ⟨name, .column, some "INT"⟩

/-- A database with one table of one column. -/
def oneTable (database table column : String) : Database :=
  ⟨database, [⟨table, [⟨column, "INT"⟩]⟩]⟩

lemma tableIn?_oneTable {database table column name : String} :
    Schema.tableIn? name (oneTable database table column) =
      if foldCase table = foldCase name then
        some (oneTable database table column, ⟨table, [⟨column, "INT"⟩]⟩) else none := by
  by_cases h : foldCase table = foldCase name <;>
    simp [Schema.tableIn?, oneTable, Database.table?, equalIgnoringCase_eq, h]

/-- Two databases with tables of one name. -/
def twoDatabases (database table : String) : Schema :=
  ⟨[oneTable (database ++ "_") table "a", oneTable database table "b"]⟩

lemma database?_twoDatabases (database table name : String) :
    (twoDatabases database table).database? name =
      if foldCase database = foldCase name then some (oneTable database table "b")
      else if foldCase (database ++ "_") = foldCase name then
        some (oneTable (database ++ "_") table "a")
      else none := by
  have hne := foldCase_append_ne database (b := "_") (by decide)
  rw [Schema.database?, twoDatabases]
  split_ifs with h h'
  · rw [h] at hne
    simp [oneTable, equalIgnoringCase_eq, h, hne]
  · simp [oneTable, equalIgnoringCase_eq, h']
  · simp [oneTable, equalIgnoringCase_eq, h, h']

section Separation

variable {context : Context} {r s : TableReference}

/-- The second database is used only where it is named. -/
lemma columnsOfReference_twoDatabases (hselected : context.selectedDatabase = none)
    (database table : String) :
    columnsOfReference context (twoDatabases database table) r =
      if foldCase table = foldCase r.table then
        if r.database.map foldCase = some (foldCase database) then [columnNamed "b"]
        else [columnNamed "a"]
      else [] := by
  have hdatabases : (twoDatabases database table).databases.findSome? (Schema.tableIn? r.table) =
      Schema.tableIn? r.table (oneTable (database ++ "_") table "a") := by
    simp only [twoDatabases, List.findSome?_cons, List.findSome?_nil, tableIn?_oneTable]
    split_ifs <;> rfl
  rw [columnsOfReference, hselected, Option.or_none, Schema.findTable?, hdatabases]
  cases hr : r.database with
  | none =>
      rw [Option.bind_none, Option.bind_none, Option.none_or, tableIn?_oneTable]
      split_ifs with htable <;> simp_all [columnsOf, columnNamed]
  | some name =>
      rw [Option.bind_some, database?_twoDatabases]
      by_cases hname : foldCase database = foldCase name
      · rw [if_pos hname, Option.bind_some, tableIn?_oneTable, tableIn?_oneTable, Option.map_some,
          if_pos (congrArg some hname.symm)]
        split_ifs <;> rfl
      · have hname' : Option.map foldCase (some name) ≠ some (foldCase database) :=
          fun heq => hname (Option.some.inj heq).symm
        rw [if_neg hname, if_neg hname']
        split_ifs <;> simp_all [tableIn?_oneTable, columnsOf, columnNamed]

/-- References that do not name the same table have different columns in some schema. -/
lemma exists_schema_of_not_sameTable (context : Context)
    (hselected : context.selectedDatabase = none) (h : ¬ SameTable r s) :
    ∃ schema, narrow "" (columnsOfReference context schema r) ≠
      narrow "" (columnsOfReference context schema s) := by
  have hab : narrow "" [columnNamed "a"] ≠ narrow "" [columnNamed "b"] := by decide +kernel
  have ha : narrow "" [columnNamed "a"] ≠ narrow "" [] := by decide +kernel
  have hb : narrow "" [columnNamed "b"] ≠ narrow "" [] := by decide +kernel
  by_cases htable : foldCase r.table = foldCase s.table
  · have hdatabase : r.database.map foldCase ≠ s.database.map foldCase := fun heq => h ⟨htable, heq⟩
    cases hr : r.database with
    | some d =>
        refine ⟨twoDatabases d r.table, ?_⟩
        rw [hr, Option.map_some] at hdatabase
        rw [columnsOfReference_twoDatabases hselected, columnsOfReference_twoDatabases hselected,
          hr, if_pos rfl, Option.map_some, if_pos rfl, if_pos htable, if_neg hdatabase.symm]
        exact hab.symm
    | none =>
        cases hs : s.database with
        | none => simp [hr, hs] at hdatabase
        | some d =>
            refine ⟨twoDatabases d r.table, ?_⟩
            rw [columnsOfReference_twoDatabases hselected,
              columnsOfReference_twoDatabases hselected, hr, hs, if_pos rfl, if_pos htable,
              if_neg (by simp), Option.map_some, if_pos rfl]
            exact hab
  · refine ⟨twoDatabases "" r.table, ?_⟩
    rw [columnsOfReference_twoDatabases hselected, columnsOfReference_twoDatabases hselected,
      if_pos rfl, if_neg htable]
    split_ifs
    · exact hb
    · exact ha

end Separation

end TableReference

end SqlCompletion
