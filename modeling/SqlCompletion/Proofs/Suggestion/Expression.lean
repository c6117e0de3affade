import SqlCompletion.Proofs.Suggestion.Dotted
import SqlCompletion.Proofs.Suggestion.Narrowing

/-!
What is offered in an expression, where no dot precedes the word.

* `Context.Sees`: the references in scope;
* `Expressible`: what an expression may be made of, namely the columns of the tables in scope, the
  names by which these are addressed, functions and keywords, and operators in a predicate;
* `mem_clauseCandidates_iff`: the candidates are what an expression may be made of;
* `suggestions_of_expression`: to the user, what is offered is what of this begins with the word,
  each once.
-/

namespace SqlCompletion

open Text

/-! ### Scope -/

/-- The reference is in scope: it stands after `FROM` or `JOIN`, or it is the target of a statement
that has nothing there. -/
def Context.Sees (context : Context) (r : TableReference) : Prop :=
  r ∈ context.fromTables ∨ context.fromTables = [] ∧ context.targetTable = some r

lemma Context.mem_visibleTables_iff {context : Context} {r : TableReference} :
    r ∈ context.visibleTables ↔ context.Sees r := by
  rw [visibleTables, Sees]
  cases h : context.fromTables with
  | nil => simp
  | cons => simp

/-! ### What an expression may be made of -/

/-- The clauses that hold expressions. -/
def expressionClauses : List Clause :=
  [.SELECT, .WHERE, .ON, .GROUP_BY, .ORDER_BY, .HAVING]

/-- The clauses that hold predicates. -/
def predicateClauses : List Clause :=
  [.WHERE, .ON, .HAVING]

/-- What an expression may be made of: the columns, with their types, of the table that the schema
has for a reference in scope, in its database or else in the selected one; the name by which a
reference in scope is addressed; the functions and keywords; and in a predicate the operators. -/
inductive Expressible (context : Context) (schema : Schema) (functions keywords : List String) :
    Suggestion → Prop
  | column {r database table column} : context.Sees r →
      schema.Finds (r.database.or context.selectedDatabase) r.table database table →
      column ∈ table.columns →
      Expressible context schema functions keywords ⟨column.name, .column, some column.dataType⟩
  | qualifier {r} : context.Sees r →
      Expressible context schema functions keywords
        ⟨r.qualifier, .table, if r.aliasName.isSome then some r.table else none⟩
  | function {name} : name ∈ functions →
      Expressible context schema functions keywords ⟨name, .function, none⟩
  | keyword {name} : name ∈ keywords →
      Expressible context schema functions keywords ⟨name, .keyword, none⟩
  | operator {text} : context.clause ∈ predicateClauses → text ∈ operatorTexts →
      Expressible context schema functions keywords ⟨text, .operator, none⟩

section Candidates

variable {context : Context} {schema : Schema} {functions keywords : List String} {s : Suggestion}

lemma mem_expressionNames_iff :
    s ∈ expressionNames context schema ↔
      (∃ r, context.Sees r ∧ s ∈ columnsOfReference context schema r) ∨
        ∃ r, context.Sees r ∧ qualifierOf r = s := by
  simp only [expressionNames, List.mem_append, List.mem_flatMap, List.mem_map,
    Context.mem_visibleTables_iff]

lemma mem_namesAs_iff {category : Category} {names : List String} :
    s ∈ namesAs category names ↔ ∃ name ∈ names, ⟨name, category, none⟩ = s :=
  List.mem_map

/-- The candidates of the clauses with expressions differ by the operators only. -/
lemma clauseCandidates_of_expression (h : context.clause ∈ expressionClauses) :
    clauseCandidates context schema functions keywords =
      expressionNames context schema ++ namesAs .function functions ++ namesAs .keyword keywords ++
        if context.clause ∈ predicateClauses then namesAs .operator operatorTexts else [] := by
  rw [clauseCandidates]
  cases hclause : context.clause
  case SELECT | GROUP_BY | ORDER_BY => exact (List.append_nil _).symm
  case WHERE | HAVING | ON => rfl
  all_goals
    rw [hclause] at h
    exact absurd h (by decide)

/-- The candidates are what an expression may be made of. -/
lemma mem_clauseCandidates_iff (h : context.clause ∈ expressionClauses) :
    s ∈ clauseCandidates context schema functions keywords ↔
      Expressible context schema functions keywords s := by
  rw [clauseCandidates_of_expression h]
  simp only [List.mem_append, mem_expressionNames_iff, mem_namesAs_iff]
  constructor
  · rintro ((((⟨r, hr, hs⟩ | ⟨r, hr, rfl⟩) | ⟨name, hname, rfl⟩) | ⟨name, hname, rfl⟩) | hs)
    · obtain ⟨database, table, column, hfinds, hcolumn, rfl⟩ := mem_columnsOfReference_iff.mp hs
      exact .column hr hfinds hcolumn
    · exact .qualifier hr
    · exact .function hname
    · exact .keyword hname
    · split at hs
      · next hpredicate =>
          obtain ⟨text, htext, rfl⟩ := mem_namesAs_iff.mp hs
          exact .operator hpredicate htext
      · cases hs
  · intro hs
    cases hs with
    | column hr hfinds hcolumn =>
        exact .inl (.inl (.inl (.inl
          ⟨_, hr, mem_columnsOfReference_iff.mpr ⟨_, _, _, hfinds, hcolumn, rfl⟩⟩)))
    | qualifier hr => exact .inl (.inl (.inl (.inr ⟨_, hr, rfl⟩)))
    | function hname => exact .inl (.inl (.inr ⟨_, hname, rfl⟩))
    | keyword hname => exact .inl (.inr ⟨_, hname, rfl⟩)
    | operator hpredicate htext =>
        rw [if_pos hpredicate]
        exact .inr (mem_namesAs_iff.mpr ⟨_, htext, rfl⟩)

end Candidates

/-- **Completion of expressions is sound and complete.** Whatever the schema, the functions and the
keywords: what is offered where an expression stands and no dot precedes the word is something an
expression may be made of whose label begins with the word in small letters. Everything of that kind
is offered, unless something else of the same category is that has the same label in small letters,
and no two suggestions agree in both. -/
theorem suggestions_of_expression (context : Context) (hdot : context.isAfterDot = false)
    (hclause : context.clause ∈ expressionClauses) (schema : Schema)
    (functions keywords : List String) :
    let offered := suggestions context schema functions keywords
    (∀ s ∈ offered, Expressible context schema functions keywords s ∧
        (lower context.currentWord).toList <+: (lower s.label).toList) ∧
      (∀ s, Expressible context schema functions keywords s →
        (lower context.currentWord).toList <+: (lower s.label).toList →
          ∃ s' ∈ offered, s'.category = s.category ∧ lower s'.label = lower s.label) ∧
      offered.Pairwise fun s s' =>
        ¬ (s.category = s'.category ∧ lower s.label = lower s'.label) := by
  intro offered
  have hcandidates : ∀ s, s ∈ candidates context schema functions keywords ↔
      Expressible context schema functions keywords s := fun s => by
    rw [candidates, hdot, if_neg Bool.false_ne_true, mem_clauseCandidates_iff hclause]
  refine ⟨fun s hs => ?_, fun s hs hword => ?_, ?_⟩
  · obtain ⟨hmem, hword⟩ := mem_of_mem_narrow hs
    exact ⟨(hcandidates s).mp hmem, List.isPrefixOf_iff_prefix.mp hword⟩
  · obtain ⟨s', hs', heq⟩ := exists_mem_narrow ((hcandidates s).mpr hs)
      (List.isPrefixOf_iff_prefix.mpr hword)
    exact ⟨s', hs', Prod.mk.inj heq⟩
  · exact pairwise_narrow.imp fun hne heq => hne (Prod.ext heq.1 heq.2)

/-- Two tables in scope have a column of one name in different case, and the second is that of the
selected database although another database has one too: the first column is offered for both. -/
theorem suggestions_of_expression_join :
    let orders : TableReference := ⟨some "Shop", "orders", some "o", none, 28⟩
    let users : TableReference := ⟨none, "users", none, some 41, 41⟩
    let context : Context :=
      { clause := .ON, currentWord := "I", selectedDatabase := some "Crm"
        fromTables := [orders, users] }
    let table : Table := ⟨"Users", [⟨"email", "TEXT"⟩, ⟨"ID", "BIGINT"⟩]⟩
    let database : Database := ⟨"crm", [table]⟩
    let schema : Schema :=
      ⟨[⟨"shop", [⟨"orders", [⟨"id", "INT"⟩, ⟨"total", "INT"⟩]⟩, ⟨"users", []⟩]⟩, database]⟩
    let offered := suggestions context schema ["COUNT", "IF"] ["IN", "SELECT"]
    context.isAfterDot = false ∧ context.clause ∈ expressionClauses ∧
      offered = [⟨"id", .column, some "INT"⟩, ⟨"IF", .function, none⟩, ⟨"IN", .keyword, none⟩,
        ⟨"IN", .operator, none⟩, ⟨"IS NULL", .operator, none⟩, ⟨"IS NOT NULL", .operator, none⟩] ∧
      ∃ s ∈ offered, s.category = .column ∧ lower s.label = lower "ID" := by
  intro orders users context table database schema offered
  have hclause : context.clause ∈ expressionClauses := by decide
  have hsees : context.Sees users := .inl (by decide)
  have hfinds : schema.Finds (some "Crm") "users" database table :=
    Schema.findTable?_eq_some_iff.mp (by decide +kernel)
  have hcolumn : (⟨"ID", "BIGINT"⟩ : Column) ∈ table.columns := by decide
  exact ⟨rfl, hclause, by decide +kernel,
    (suggestions_of_expression context rfl hclause schema ["COUNT", "IF"] ["IN", "SELECT"]).2.1 _
      (.column hsees hfinds hcolumn) (by decide +kernel)⟩

end SqlCompletion
