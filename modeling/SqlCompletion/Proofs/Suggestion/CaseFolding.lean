import SqlCompletion.Proofs.Context.CaseFolding
import SqlCompletion.Proofs.Suggestion.Columns
import SqlCompletion.Proofs.Suggestion.Narrowing

/-!
Letter case never changes what is offered.

* `dottedCandidates_folded`, `map_clauseCandidates_folded`: the candidates for a folded context are
  to the user those for the context;
* `suggestions_of_equalIgnoringCase`: the suggestions in two queries that differ by the case of
  ASCII letters are the same to the user.
-/

namespace SqlCompletion

open Text

/-! ### Candidates -/

namespace TableReference

lemma sameTable_renamed (r : TableReference) : SameTable (r.renamed folded) r := by
  refine ⟨foldCase_folded r.table, ?_⟩
  rw [renamed, Option.map_map]
  exact congrArg (fun f => r.database.map f) (funext foldCase_folded)

lemma qualifier_renamed (f : String → String) (r : TableReference) :
    (r.renamed f).qualifier = f r.qualifier := by
  rw [qualifier, qualifier, renamed]
  cases r.aliasName <;> rfl

end TableReference

section Candidates

variable (context : Context) (schema : Schema)

lemma visibleTables_folded :
    context.folded.visibleTables = context.visibleTables.map (TableReference.renamed folded) := by
  rw [Context.visibleTables, Context.visibleTables, Context.folded, List.isEmpty_map]
  split_ifs
  · cases context.targetTable <;> rfl
  · rfl

lemma columnsOfReference_renamed (r : TableReference) :
    columnsOfReference context.folded schema (r.renamed folded) =
      columnsOfReference context schema r :=
  r.sameTable_renamed.columnsOfReference_eq context schema

lemma flatMap_columnsOfReference_renamed (rs : List TableReference) :
    (rs.map (TableReference.renamed folded)).flatMap (columnsOfReference context.folded schema) =
      rs.flatMap (columnsOfReference context schema) := by
  rw [List.flatMap_map]
  exact congrArg rs.flatMap (funext (columnsOfReference_renamed context schema))

lemma map_expressionNames_folded :
    (expressionNames context.folded schema).map identityOf =
      (expressionNames context schema).map identityOf := by
  have hqualifier : ∀ r : TableReference,
      identityOf (qualifierOf (r.renamed folded)) = identityOf (qualifierOf r) := fun r => by
    rw [identityOf, identityOf, qualifierOf, qualifierOf, r.qualifier_renamed, lower_folded]
  rw [expressionNames, expressionNames, visibleTables_folded, flatMap_columnsOfReference_renamed,
    List.map_append, List.map_append, List.map_map, List.map_map, List.map_map]
  congr 1
  exact List.map_congr_left fun r _ => hqualifier r

lemma referenceNamed?_folded (name : String) (visible : List TableReference) :
    referenceNamed? (folded name) (visible.map (TableReference.renamed folded)) =
      (referenceNamed? name visible).map (TableReference.renamed folded) := by
  have haliased : (fun r : TableReference =>
      r.aliasName.any fun a => equalIgnoringCase a (folded name)) ∘ TableReference.renamed folded =
        fun r => r.aliasName.any fun a => equalIgnoringCase a name := by
    funext r
    cases h : r.aliasName <;>
      simp [TableReference.renamed, h, equalIgnoringCase_eq]
  have hnamed : (fun r : TableReference => equalIgnoringCase r.table (folded name)) ∘
      TableReference.renamed folded = fun r => equalIgnoringCase r.table name := by
    funext r
    simp [TableReference.renamed, equalIgnoringCase_eq]
  rw [referenceNamed?, referenceNamed?, List.find?_map, List.find?_map, haliased, hnamed,
    Option.map_or]

lemma database?_folded (name : String) :
    schema.database? (folded name) = schema.database? name := by
  simp only [Schema.database?, equalIgnoringCase_eq, foldCase_folded]

/-- After a dot the candidates are the same. -/
lemma dottedCandidates_folded :
    dottedCandidates context.folded schema = dottedCandidates context schema := by
  have hclause : context.folded.clause = context.clause := rfl
  have hdatabase : context.folded.databasePart = context.databasePart.map folded := rfl
  have htable : context.folded.tablePart = context.tablePart.map folded := rfl
  rw [dottedCandidates, dottedCandidates, hclause, hdatabase, htable]
  cases context.databasePart with
  | none => rfl
  | some name =>
      cases context.tablePart with
      | some table =>
          have hfound : schema.findTable? (some (folded name)) (folded table) =
              schema.findTable? (some name) table :=
            findTable?_congr (by rw [Option.map_some, foldCase_folded, Option.map_some])
              (foldCase_folded table) schema
          simp only [Option.map_some, hfound]
      | none =>
          simp only [Option.map_some, Option.map_none, visibleTables_folded, referenceNamed?_folded,
            database?_folded]
          split_ifs
          · cases referenceNamed? name context.visibleTables with
            | none => rfl
            | some r => exact columnsOfReference_renamed context schema r
          · rfl

/-- Elsewhere the candidates are the same to the user. -/
lemma map_clauseCandidates_folded (functions keywords : List String) :
    (clauseCandidates context.folded schema functions keywords).map identityOf =
      (clauseCandidates context schema functions keywords).map identityOf := by
  have hclause : context.folded.clause = context.clause := rfl
  have htables : tableNames context.folded schema = tableNames context schema := rfl
  rw [clauseCandidates, clauseCandidates, hclause, htables]
  cases context.clause
  case SELECT | GROUP_BY | ORDER_BY | WHERE | HAVING | ON =>
      simp only [List.map_append, map_expressionNames_folded]
  case SET =>
      have hscope : context.folded.targetTable.toList ++ context.folded.fromTables =
          (context.targetTable.toList ++ context.fromTables).map
            (TableReference.renamed folded) := by
        rw [List.map_append, Context.folded]
        cases context.targetTable <;> rfl
      simp only [hscope, flatMap_columnsOfReference_renamed]
  case INSERT =>
      have hpast : (context.folded.targetTable.filter fun target =>
          target.nameEnd < context.folded.wordStart) =
            (context.targetTable.filter fun target =>
              target.nameEnd < context.wordStart).map (TableReference.renamed folded) := by
        rw [Context.folded]
        cases context.targetTable with
        | none => rfl
        | some target =>
            by_cases h : target.nameEnd < context.wordStart <;>
              simp [Option.filter, TableReference.renamed, h]
      simp only [hpast]
      cases context.targetTable.filter fun target => target.nameEnd < context.wordStart with
      | none => rfl
      | some target =>
          exact congrArg _ (columnsOfReference_renamed context schema target)
  all_goals rfl

lemma map_suggestions_folded (functions keywords : List String) :
    (suggestions context.folded schema functions keywords).map identityOf =
      (suggestions context schema functions keywords).map identityOf := by
  have hall : (candidates context.folded schema functions keywords).map identityOf =
      (candidates context schema functions keywords).map identityOf := by
    have hdot : context.folded.isAfterDot = context.isAfterDot := rfl
    rw [candidates, candidates, hdot]
    split_ifs
    · rw [dottedCandidates_folded]
    · exact map_clauseCandidates_folded context schema functions keywords
  have hword : lower context.folded.currentWord = lower context.currentWord :=
    lower_folded context.currentWord
  rw [suggestions, suggestions, map_narrow, map_narrow, hall, hword]

end Candidates

/-! ### Queries -/

/-- The context in queries that differ by the case of ASCII letters differs by that of its names. -/
lemma Context.folded_resolve {sql sql' : String} (h : equalIgnoringCase sql sql' = true)
    (cursor : ℕ) (selectedDatabase : Option String) :
    (resolve sql cursor selectedDatabase).folded =
      (resolve sql' cursor selectedDatabase).folded := by
  rw [← resolve_folded, ← resolve_folded, folded_eq_iff.mpr h]

/-- The offsets of a reference: where an alias may be written, and where the name ends. -/
def TableReference.places (r : TableReference) : Option ℕ × ℕ :=
  (r.aliasPlace, r.nameEnd)

/-- **Letter case never changes what is offered.** In two queries that differ by the case of ASCII
letters the suggestions at a cursor are the same to the user, position by position: they agree in
category and in small letters. The contexts agree on the clause, on where the word begins, on
whether a dot precedes it, and on the number of tables and all their offsets. -/
theorem suggestions_of_equalIgnoringCase {sql sql' : String}
    (h : equalIgnoringCase sql sql' = true) (cursor : ℕ) (selectedDatabase : Option String)
    (schema : Schema) (functions keywords : List String) :
    let context := Context.resolve sql cursor selectedDatabase
    let context' := Context.resolve sql' cursor selectedDatabase
    (suggestions context schema functions keywords).map identityOf =
        (suggestions context' schema functions keywords).map identityOf ∧
      context.clause = context'.clause ∧ context.wordStart = context'.wordStart ∧
      context.isAfterDot = context'.isAfterDot ∧
      context.fromTables.map TableReference.places =
        context'.fromTables.map TableReference.places ∧
      context.targetTable.map TableReference.places =
        context'.targetTable.map TableReference.places := by
  intro context context'
  have hfolded : context.folded = context'.folded :=
    Context.folded_resolve h cursor selectedDatabase
  have hsuggestions := map_suggestions_folded context schema functions keywords
  rw [hfolded, map_suggestions_folded] at hsuggestions
  rw [Context.folded, Context.folded, Context.mk.injEq] at hfolded
  obtain ⟨hclause, htables, htarget, -, hstart, hdot, -⟩ := hfolded
  have hplaces := congrArg (List.map TableReference.places) htables
  have hplace := congrArg (Option.map TableReference.places) htarget
  rw [List.map_map, List.map_map] at hplaces
  rw [Option.map_map, Option.map_map] at hplace
  exact ⟨hsuggestions.symm, hclause, hstart, hdot, hplaces, hplace⟩

/-- A column is offered after an alias in capitals as after one in small letters. -/
theorem suggestions_of_equalIgnoringCase_alias :
    let schema : Schema := ⟨[⟨"shop", [⟨"Orders", [⟨"Price", "INT"⟩, ⟨"id", "INT"⟩]⟩]⟩]⟩
    equalIgnoringCase "SELECT O.P FROM Orders O" "select o.p from ORDERS o" = true ∧
      (suggestions (Context.resolve "SELECT O.P FROM Orders O" 10 none) schema [] []).map
        identityOf =
          (suggestions (Context.resolve "select o.p from ORDERS o" 10 none) schema [] []).map
            identityOf ∧
      (suggestions (Context.resolve "select o.p from ORDERS o" 10 none) schema [] []).map
        identityOf = [(.column, "price")] := by
  intro schema
  have hcase : equalIgnoringCase "SELECT O.P FROM Orders O" "select o.p from ORDERS o" = true := by
    decide +kernel
  exact ⟨hcase, (suggestions_of_equalIgnoringCase hcase 10 none schema [] []).1, by decide +kernel⟩

end SqlCompletion
