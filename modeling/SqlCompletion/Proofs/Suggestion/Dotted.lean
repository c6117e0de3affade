import SqlCompletion.Proofs.Schema.Lookup
import SqlCompletion.Suggestion.Candidates

/-!
What is offered after a dot, by what the names before the dot mean.

* `NamesReference`: the reference in scope that a name means, an alias before a table name;
* `Denotes`: what the names before a dot mean, which is a table or a database;
* `dottedCandidates_of_denotes`, `dottedCandidates_eq_nil`: the columns of the table or the tables
  of the database are offered, and nothing where the names mean nothing;
* `candidates_after_dot`: so an alias shadows all tables in scope, and these shadow all databases.
-/

namespace SqlCompletion

open Text

/-! ### What a name means in the query -/

/-- The name is the alias written after the reference. -/
def TableReference.HasAlias (name : String) (r : TableReference) : Prop :=
  ∃ a, r.aliasName = some a ∧ SameName a name

/-- The name is that of the table of the reference. -/
def TableReference.HasTable (name : String) (r : TableReference) : Prop :=
  SameName r.table name

/-- The reference in scope that a name means: the first with this alias, and when there is none the
first with this table. -/
inductive NamesReference (visible : List TableReference) (name : String) : TableReference → Prop
  | byAlias {r} : IsFirst (TableReference.HasAlias name) visible r → NamesReference visible name r
  | byTable {r} : (∀ s ∈ visible, ¬ s.HasAlias name) →
      IsFirst (TableReference.HasTable name) visible r → NamesReference visible name r

section NamesReference

variable {visible : List TableReference} {name : String} {r : TableReference}

lemma find?_alias_eq_some_iff :
    (visible.find? fun r => r.aliasName.any fun a => equalIgnoringCase a name) = some r ↔
      IsFirst (TableReference.HasAlias name) visible r :=
  find?_eq_some_iff_isFirst fun s => by
    simp only [Option.any_eq_true, equalIgnoringCase_iff, TableReference.HasAlias]

lemma find?_table_eq_some_iff :
    (visible.find? fun r => equalIgnoringCase r.table name) = some r ↔
      IsFirst (TableReference.HasTable name) visible r :=
  find?_eq_some_iff_isFirst fun _ => equalIgnoringCase_iff

lemma referenceNamed?_eq_some_iff :
    referenceNamed? name visible = some r ↔ NamesReference visible name r := by
  rw [referenceNamed?, Option.or_eq_some_iff, find?_alias_eq_some_iff, find?_table_eq_some_iff]
  have hnone : (visible.find? fun r => r.aliasName.any fun a => equalIgnoringCase a name) = none ↔
      ∀ s ∈ visible, ¬ s.HasAlias name := by
    simp only [List.find?_eq_none, Option.any_eq_true, equalIgnoringCase_iff,
      TableReference.HasAlias]
  rw [hnone]
  constructor
  · rintro (hfirst | ⟨hnot, hfirst⟩)
    · exact .byAlias hfirst
    · exact .byTable hnot hfirst
  · rintro (hfirst | ⟨hnot, hfirst⟩)
    · exact .inl hfirst
    · exact .inr ⟨hnot, hfirst⟩

/-- A name that some reference in scope has, as its alias or for its table, means a reference. -/
lemma isSome_referenceNamed? (h : ∃ r ∈ visible, r.HasAlias name ∨ r.HasTable name) :
    (referenceNamed? name visible).isSome := by
  obtain ⟨r, hr, hname⟩ := h
  rw [referenceNamed?, Option.isSome_or, Bool.or_eq_true, List.find?_isSome, List.find?_isSome]
  rcases hname with ⟨a, ha, hsame⟩ | hsame
  · exact .inl ⟨r, hr, by simp [ha, equalIgnoringCase_iff.mpr hsame]⟩
  · exact .inr ⟨r, hr, equalIgnoringCase_iff.mpr hsame⟩

end NamesReference

/-! ### What is offered after a dot -/

/-- What names before a dot may mean. -/
inductive DottedMeaning
  | table (table : Table)
  | database (database : Database)

/-- The columns of a table, or the tables of a database. -/
def DottedMeaning.suggestions : DottedMeaning → List Suggestion
  | table t => columnsOf t
  | database d => tablesOf d

/-- What the names before the dot of a context mean. Two names are a database and a table. One name
is, where columns are expected, that of a reference in scope, which means its table, and the name of
a database only when it is that of no reference. -/
inductive Denotes (context : Context) (schema : Schema) : DottedMeaning → Prop
  | qualified {name table database t} : context.databasePart = some name →
      context.tablePart = some table → schema.Finds (some name) table database t →
      Denotes context schema (.table t)
  | reference {name r database t} : context.databasePart = some name → context.tablePart = none →
      context.clause.bearsColumns = true → NamesReference context.visibleTables name r →
      schema.Finds (r.database.or context.selectedDatabase) r.table database t →
      Denotes context schema (.table t)
  | database {name d} : context.databasePart = some name → context.tablePart = none →
      (context.clause.bearsColumns = true → ∀ r, ¬ NamesReference context.visibleTables name r) →
      schema.NamesDatabase name d → Denotes context schema (.database d)

section Denotes

variable {context : Context} {schema : Schema} {name : String} {r : TableReference}

lemma columnsOfReference_of_finds {database : Database} {t : Table}
    (h : schema.Finds (r.database.or context.selectedDatabase) r.table database t) :
    columnsOfReference context schema r = columnsOf t := by
  rw [columnsOfReference, Schema.findTable?_eq_some_iff.mpr h]

lemma mem_columnsOfReference_iff {s : Suggestion} :
    s ∈ columnsOfReference context schema r ↔ ∃ database table column,
      schema.Finds (r.database.or context.selectedDatabase) r.table database table ∧
        column ∈ table.columns ∧ s = ⟨column.name, .column, some column.dataType⟩ := by
  constructor
  · intro hs
    rw [columnsOfReference] at hs
    split at hs
    · next database table hfind =>
        obtain ⟨column, hcolumn, rfl⟩ := List.mem_map.mp hs
        exact ⟨database, table, column, Schema.findTable?_eq_some_iff.mp hfind, hcolumn, rfl⟩
    · cases hs
  · rintro ⟨database, table, column, hfinds, hcolumn, rfl⟩
    rw [columnsOfReference_of_finds hfinds]
    exact List.mem_map_of_mem hcolumn

/-- After two names the columns of the table with these names are offered. -/
lemma dottedCandidates_of_qualified {table : String} (hname : context.databasePart = some name)
    (hpart : context.tablePart = some table) :
    dottedCandidates context schema =
      ((schema.findTable? (some name) table).map fun found => columnsOf found.2).getD [] := by
  rw [dottedCandidates, hname, hpart]
  simp only
  cases schema.findTable? (some name) table <;> rfl

/-- After the name of a reference its columns are offered. -/
lemma dottedCandidates_of_reference (hname : context.databasePart = some name)
    (hpart : context.tablePart = none) (hclause : context.clause.bearsColumns = true)
    (hr : referenceNamed? name context.visibleTables = some r) (schema : Schema) :
    dottedCandidates context schema = columnsOfReference context schema r := by
  rw [dottedCandidates, hname, hpart]
  simp only [hclause, if_true, hr]

/-- After any other name the tables of the database with this name are offered. -/
lemma dottedCandidates_of_not_reference (hname : context.databasePart = some name)
    (hpart : context.tablePart = none)
    (hnot : context.clause.bearsColumns = true →
      ∀ r, ¬ NamesReference context.visibleTables name r) :
    dottedCandidates context schema = ((schema.database? name).map tablesOf).getD [] := by
  have hnone : (if context.clause.bearsColumns then referenceNamed? name context.visibleTables
      else none) = none := by
    split_ifs with hclause
    · exact Option.eq_none_iff_forall_ne_some.mpr fun r hr =>
        hnot hclause r (referenceNamed?_eq_some_iff.mp hr)
    · rfl
  rw [dottedCandidates, hname, hpart]
  simp only [hnone]
  cases schema.database? name <;> rfl

/-- What the names mean is offered. -/
lemma dottedCandidates_of_denotes {meaning : DottedMeaning} (h : Denotes context schema meaning) :
    dottedCandidates context schema = meaning.suggestions := by
  cases h with
  | qualified hname hpart hfinds =>
      rw [dottedCandidates_of_qualified hname hpart, Schema.findTable?_eq_some_iff.mpr hfinds]
      rfl
  | reference hname hpart hclause hr hfinds =>
      rw [dottedCandidates_of_reference hname hpart hclause (referenceNamed?_eq_some_iff.mpr hr),
        columnsOfReference_of_finds hfinds]
      rfl
  | database hname hpart hnot hdatabase =>
      rw [dottedCandidates_of_not_reference hname hpart hnot,
        Schema.database?_eq_some_iff.mpr hdatabase]
      rfl

/-- Nothing is offered where the names mean nothing. -/
lemma dottedCandidates_eq_nil (h : ∀ meaning, ¬ Denotes context schema meaning) :
    dottedCandidates context schema = [] := by
  cases hname : context.databasePart with
  | none => rw [dottedCandidates, hname]
  | some name =>
      cases hpart : context.tablePart with
      | some table =>
          rw [dottedCandidates_of_qualified hname hpart]
          cases hfind : schema.findTable? (some name) table with
          | none => rfl
          | some found =>
              exact absurd (.qualified hname hpart (Schema.findTable?_eq_some_iff.mp hfind)) (h _)
      | none =>
          by_cases hr : context.clause.bearsColumns = true ∧
              ∃ r, NamesReference context.visibleTables name r
          · obtain ⟨hclause, r, hr⟩ := hr
            rw [dottedCandidates_of_reference hname hpart hclause
              (referenceNamed?_eq_some_iff.mpr hr), columnsOfReference]
            cases hfind : schema.findTable? (r.database.or context.selectedDatabase) r.table with
            | none => rfl
            | some found =>
                exact absurd (.reference hname hpart hclause hr
                  (Schema.findTable?_eq_some_iff.mp hfind)) (h _)
          · have hnot : context.clause.bearsColumns = true →
                ∀ r, ¬ NamesReference context.visibleTables name r :=
              fun hclause r hmeans => hr ⟨hclause, r, hmeans⟩
            rw [dottedCandidates_of_not_reference hname hpart hnot]
            cases hdatabase : schema.database? name with
            | none => rfl
            | some d =>
                exact absurd (.database hname hpart hnot
                  (Schema.database?_eq_some_iff.mp hdatabase)) (h _)

lemma category_of_columnsOfReference {s : Suggestion}
    (h : s ∈ columnsOfReference context schema r) : s.category = .column := by
  obtain ⟨-, -, -, -, -, rfl⟩ := mem_columnsOfReference_iff.mp h
  rfl

/-- Columns or tables are offered after a dot, and never both. -/
lemma category_of_denotes (meaning : DottedMeaning) :
    (∀ s ∈ meaning.suggestions, s.category = .column) ∨
      ∀ s ∈ meaning.suggestions, s.category = .table := by
  cases meaning with
  | table t =>
      refine .inl fun s hs => ?_
      obtain ⟨c, -, rfl⟩ := List.mem_map.mp hs
      rfl
  | database d =>
      refine .inr fun s hs => ?_
      obtain ⟨t, -, rfl⟩ := List.mem_map.mp hs
      rfl

end Denotes

/-- **Names before a dot.** Whatever the schema, the functions and the keywords: what is offered
after a dot, before it is narrowed to the word being typed, is what the names before the dot mean,
the columns of a table or the tables of a database, and nothing where they mean nothing. So columns
and tables are never offered together, and functions, keywords and operators not at all. Where
columns are expected, the first reference with this alias shadows all references with this table
name, and a reference with either shadows all databases with this name. -/
theorem candidates_after_dot (context : Context) (hdot : context.isAfterDot = true)
    (schema : Schema) (functions keywords : List String) :
    let offered := candidates context schema functions keywords
    (∀ meaning, Denotes context schema meaning → offered = meaning.suggestions) ∧
      ((∀ meaning, ¬ Denotes context schema meaning) → offered = []) ∧
      ((∀ s ∈ offered, s.category = .column) ∨ ∀ s ∈ offered, s.category = .table) ∧
      ∀ name, context.databasePart = some name → context.tablePart = none →
        context.clause.bearsColumns = true →
          (∀ r, IsFirst (TableReference.HasAlias name) context.visibleTables r →
            offered = columnsOfReference context schema r) ∧
          ((∃ r ∈ context.visibleTables, r.HasAlias name ∨ r.HasTable name) →
            ∀ s ∈ offered, s.category = .column) := by
  intro offered
  have hoffered : offered = dottedCandidates context schema := if_pos hdot
  rw [hoffered]
  refine ⟨fun meaning => dottedCandidates_of_denotes, dottedCandidates_eq_nil, ?_, ?_⟩
  · by_cases hmeans : ∃ meaning, Denotes context schema meaning
    · obtain ⟨meaning, hmeaning⟩ := hmeans
      rw [dottedCandidates_of_denotes hmeaning]
      exact category_of_denotes meaning
    · rw [dottedCandidates_eq_nil fun meaning h => hmeans ⟨meaning, h⟩]
      exact .inl (by simp)
  · intro name hname hpart hclause
    refine ⟨fun r hr => ?_, fun hscope s hs => ?_⟩
    · exact dottedCandidates_of_reference hname hpart hclause
        (referenceNamed?_eq_some_iff.mpr (.byAlias hr)) schema
    · obtain ⟨r, hr⟩ := Option.isSome_iff_exists.mp (isSome_referenceNamed? hscope)
      rw [dottedCandidates_of_reference hname hpart hclause hr] at hs
      exact category_of_columnsOfReference hs

/-- An alias that is also the name of a table in scope before it, and of the database. -/
theorem candidates_after_dot_shadowing :
    let context : Context :=
      { clause := .WHERE, isAfterDot := true, databasePart := some "SHOP"
        fromTables := [⟨none, "shop", none, some 18, 18⟩, ⟨none, "users", some "Shop", none, 25⟩] }
    let schema : Schema :=
      ⟨[⟨"shop", [⟨"shop", [⟨"street", "TEXT"⟩]⟩, ⟨"users", [⟨"email", "TEXT"⟩]⟩]⟩]⟩
    context.isAfterDot = true ∧
      candidates context schema ["COUNT"] ["SELECT"] = [⟨"email", .column, some "TEXT"⟩] := by
  intro context schema
  have hfirst : IsFirst (TableReference.HasAlias "SHOP") context.visibleTables
      ⟨none, "users", some "Shop", none, 25⟩ :=
    ⟨[⟨none, "shop", none, some 18, 18⟩], [], rfl, ⟨"Shop", rfl, by decide +kernel⟩,
      by simp [TableReference.HasAlias]⟩
  refine ⟨rfl, ?_⟩
  have hshadowing := (candidates_after_dot context rfl schema ["COUNT"] ["SELECT"]).2.2.2
  rw [(hshadowing "SHOP" rfl rfl rfl).1 _ hfirst]
  decide +kernel

end SqlCompletion
