import SqlCompletion.Proofs.Alias.Collision
import SqlCompletion.Proofs.Suggestion.Columns
import SqlCompletion.Proofs.Suggestion.Dotted

/-!
What a name before a dot means once every reference has an alias.

* `referenceNamed?_of_inserted`: a name that is the alias inserted for a reference means this
  reference;
* `exists_referenceNamed?_of_not_inserted`: every other name means what it meant before;
* `suggestsSame_iff`: the same is suggested after a name where it means the same table;
* `suggestsSame_withInsertions_iff`: so the same is suggested after a name unless it is the alias
  inserted for another table;
* `not_suggestsSame_withInsertions`: which may be.
-/

namespace SqlCompletion

open Text TableReference

/-- A name is the alias of the reference, ignoring the case of ASCII letters. -/
def TableReference.answersTo (name : String) (r : TableReference) : Bool :=
  r.aliasName.any fun a => equalIgnoringCase a name

lemma equalIgnoringCase_trans {a b c : String} (ha : equalIgnoringCase a c = true)
    (hb : equalIgnoringCase b c = true) : equalIgnoringCase a b = true := by
  rw [equalIgnoringCase, beq_iff_eq] at ha hb ⊢
  rw [ha, hb]

/-! ### The reference that a name means -/

section Named

variable {name : String} {refs refs' : List TableReference}

/-- Among values that stand for references, a name means the first whose alias it is, else the first
whose table it is. -/
lemma referenceNamed?_map {α : Type} (f : α → TableReference) (xs : List α) :
    referenceNamed? name (xs.map f) =
      ((xs.find? (answersTo name ∘ f)).or
        (xs.find? ((fun r => equalIgnoringCase r.table name) ∘ f))).map f := by
  have halias : ((xs.map f).find? fun r => r.aliasName.any fun a => equalIgnoringCase a name) =
      (xs.find? (answersTo name ∘ f)).map f := List.find?_map
  rw [referenceNamed?, halias, List.find?_map, Option.map_or]

/-- Two references that answer to one name are not apart. -/
lemma not_apart_of_answersTo {p p' : TableReference × TableReference} (hp : p.2.answersTo name)
    (hp' : p'.2.answersTo name) (hnone : p.1.aliasName = none ∨ p'.1.aliasName = none) :
    ¬ Apart p p' := by
  intro hapart
  obtain ⟨a, ha, hname⟩ := (Option.any_eq_true _ _).mp hp
  obtain ⟨b, hb, hname'⟩ := (Option.any_eq_true _ _).mp hp'
  have hne := hapart hnone a ha b hb
  rw [equalIgnoringCase_trans hname hname'] at hne
  cases hne

/-- A name that is the alias inserted for a reference means this reference. -/
lemma referenceNamed?_of_inserted (h : List.Forall₂ Extends refs refs')
    (hapart : (refs.zip refs').Pairwise Apart) {p : TableReference × TableReference}
    (hp : p ∈ refs.zip refs') (hnone : p.1.aliasName = none)
    (hanswers : p.2.answersTo name = true) : referenceNamed? name refs' = some p.2 := by
  have hfind : (refs.zip refs').find? (answersTo name ∘ Prod.snd) = some p := by
    have hsome : ((refs.zip refs').find? (answersTo name ∘ Prod.snd)).isSome :=
      List.find?_isSome.mpr ⟨p, hp, hanswers⟩
    obtain ⟨p', hp'⟩ := Option.isSome_iff_exists.mp hsome
    have hanswers' : p'.2.answersTo name = true := by simpa using List.find?_some hp'
    -- no other reference answers to the name, since it would be apart
    have heq : p' = p := by
      by_contra hne
      exact not_apart_of_answersTo hanswers' hanswers (.inr hnone)
        (hapart.forall (List.mem_of_find?_eq_some hp') hp hne)
    rw [hp', heq]
  have hrefs' : refs' = (refs.zip refs').map Prod.snd :=
    (List.map_snd_zip h.length_eq.ge).symm
  rw [hrefs', referenceNamed?_map, hfind]
  rfl

/-- A name that is inserted for no reference means what it meant before. -/
lemma exists_referenceNamed?_of_not_inserted (h : List.Forall₂ Extends refs refs')
    (hnot : ∀ p ∈ refs.zip refs', p.1.aliasName = none → ¬ p.2.answersTo name = true)
    {r : TableReference} (hr : referenceNamed? name refs = some r) :
    ∃ r', referenceNamed? name refs' = some r' ∧ Extends r r' := by
  have hextends : ∀ p ∈ refs.zip refs', Extends p.1 p.2 := fun p hp =>
    (List.forall₂_iff_zip.mp h).2 hp
  have halias : (refs.zip refs').find? (answersTo name ∘ Prod.snd) =
      (refs.zip refs').find? (answersTo name ∘ Prod.fst) := by
    refine List.find?_congr fun p hp => ?_
    cases hwritten : p.1.aliasName with
    | none =>
        have hanswers := hnot p hp hwritten
        simp_all [answersTo]
    | some a =>
        have hsame := (hextends p hp).aliasName (by simp [hwritten])
        simp [answersTo, hsame]
  have htable : (refs.zip refs').find? ((fun r => equalIgnoringCase r.table name) ∘ Prod.snd) =
      (refs.zip refs').find? ((fun r => equalIgnoringCase r.table name) ∘ Prod.fst) := by
    refine List.find?_congr fun p hp => ?_
    rw [Function.comp_apply, Function.comp_apply, (hextends p hp).table]
  have hrefs : refs = (refs.zip refs').map Prod.fst := (List.map_fst_zip h.length_eq.le).symm
  have hrefs' : refs' = (refs.zip refs').map Prod.snd := (List.map_snd_zip h.length_eq.ge).symm
  rw [hrefs, referenceNamed?_map] at hr
  obtain ⟨p, hp, rfl⟩ := Option.map_eq_some_iff.mp hr
  have hmem : p ∈ refs.zip refs' := by
    rcases Option.or_eq_some_iff.mp hp with hp | ⟨-, hp⟩ <;> exact List.mem_of_find?_eq_some hp
  refine ⟨p.2, ?_, hextends p hmem⟩
  rw [hrefs', referenceNamed?_map, halias, htable, hp]
  rfl

end Named

/-! ### The suggestions after a name -/

/-- The same is suggested after a name and a dot, whatever the context and the schema. -/
def SuggestsSame (name : String) (refs refs' : List TableReference) : Prop :=
  ∀ (context : Context) (schema : Schema) (functions keywords : List String),
    context.isAfterDot = true → context.databasePart = some name → context.tablePart = none →
      context.clause.bearsColumns = true →
        suggestions { context with fromTables := refs' } schema functions keywords =
          suggestions { context with fromTables := refs } schema functions keywords

/-- Where a name means a reference, the columns of its table are suggested after it. -/
lemma suggestions_of_referenceNamed? (context : Context) {name : String} {r : TableReference}
    (hdot : context.isAfterDot = true) (hname : context.databasePart = some name)
    (hpart : context.tablePart = none) (hclause : context.clause.bearsColumns = true)
    (hr : referenceNamed? name context.fromTables = some r) (schema : Schema)
    (functions keywords : List String) :
    suggestions context schema functions keywords =
      narrow context.currentWord (columnsOfReference context schema r) := by
  have hvisible : context.visibleTables = context.fromTables := by
    have hne : context.fromTables ≠ [] := by
      intro hnil
      simp [hnil, referenceNamed?] at hr
    rw [Context.visibleTables, if_neg (by simpa using hne)]
  rw [suggestions, candidates, if_pos hdot,
    dottedCandidates_of_reference hname hpart hclause (hvisible ▸ hr)]

/-- The same is suggested after a name if and only if it means the same table. -/
lemma suggestsSame_iff {name : String} {refs refs' : List TableReference} {r r' : TableReference}
    (hr : referenceNamed? name refs = some r) (hr' : referenceNamed? name refs' = some r') :
    SuggestsSame name refs refs' ↔ SameTable r' r := by
  constructor
  · intro h
    by_contra hnot
    let context : Context := { clause := .SELECT, isAfterDot := true, databasePart := some name }
    obtain ⟨schema, hne⟩ := exists_schema_of_not_sameTable context rfl hnot
    have hsame := h context schema [] [] rfl rfl rfl rfl
    rw [suggestions_of_referenceNamed? { context with fromTables := refs } rfl rfl rfl rfl hr,
      suggestions_of_referenceNamed? { context with fromTables := refs' } rfl rfl rfl rfl hr']
      at hsame
    exact hne hsame
  · intro h context schema functions keywords hdot hname hpart hclause
    rw [suggestions_of_referenceNamed? { context with fromTables := refs } hdot hname hpart
        hclause hr,
      suggestions_of_referenceNamed? { context with fromTables := refs' } hdot hname hpart
        hclause hr']
    exact congrArg _ (h.columnsOfReference_eq _ schema)

lemma sameTable_iff_of_extends {r r' s : TableReference} (h : Extends r r') :
    SameTable r' s ↔ SameTable r s := by
  constructor <;> rintro ⟨htable, hdatabase⟩
  · rw [h.table] at htable
    rw [h.database] at hdatabase
    exact ⟨htable, hdatabase⟩
  · rw [← h.table] at htable
    rw [← h.database] at hdatabase
    exact ⟨htable, hdatabase⟩

/-- **Inserted aliases capture no other names.** Aliases are found if the names that are written or
taken and the references are no more than 2^31. Wherever one is inserted for every reference that has
none, the same is suggested after a name that means a reference if and only if this name is the alias
inserted for no reference to another table. After an alias that was written it always is. -/
theorem suggestsSame_withInsertions_iff {refs : List TableReference}
    (hnames : ∀ r ∈ refs, r.table ≠ "") (overflow : Overflow) (taken : List String) {name : String}
    {r : TableReference} (hr : referenceNamed? name refs = some r) :
    ((writtenAliases refs ++ taken).toFinset.card + refs.length ≤ 2 ^ 31 →
      (insertionsFor? overflow refs taken).isSome) ∧
    ∀ insertions final, insertionsFor? overflow refs taken = some (insertions, final) →
      let refs' := withInsertions refs insertions
      (SuggestsSame name refs refs' ↔ ∀ p ∈ refs.zip refs',
        p.1.aliasName = none → p.2.answersTo name = true → SameTable p.1 r) ∧
      (refs.any (answersTo name) = true → SuggestsSame name refs refs') := by
  refine ⟨isSome_insertionsFor? overflow, fun insertions final hfound => ?_⟩
  intro refs'
  have hextends : List.Forall₂ Extends refs refs' := extends_withInsertions refs _
  have hapart : (refs.zip refs').Pairwise Apart :=
    pairwise_apart_withInsertions hnames hfound
  have hmem : ∀ p ∈ refs.zip refs', Extends p.1 p.2 := fun p hp =>
    (List.forall₂_iff_zip.mp hextends).2 hp
  have hinserted : ∀ p ∈ refs.zip refs', p.1.aliasName = none → p.2.answersTo name = true →
      (SuggestsSame name refs refs' ↔ SameTable p.1 r) := by
    intro p hp hnone hanswers
    rw [suggestsSame_iff hr (referenceNamed?_of_inserted hextends hapart hp hnone hanswers),
      sameTable_iff_of_extends (hmem p hp)]
  have hiff : SuggestsSame name refs refs' ↔ ∀ p ∈ refs.zip refs',
      p.1.aliasName = none → p.2.answersTo name = true → SameTable p.1 r := by
    constructor
    · intro h p hp hnone hanswers
      exact (hinserted p hp hnone hanswers).mp h
    · intro h
      by_cases hcaptured : ∃ p ∈ refs.zip refs', p.1.aliasName = none ∧ p.2.answersTo name = true
      · obtain ⟨p, hp, hnone, hanswers⟩ := hcaptured
        exact (hinserted p hp hnone hanswers).mpr (h p hp hnone hanswers)
      · obtain ⟨r', hr', hsame⟩ := exists_referenceNamed?_of_not_inserted hextends
          (fun p hp hnone hanswers => hcaptured ⟨p, hp, hnone, hanswers⟩) hr
        exact (suggestsSame_iff hr hr').mpr
          ((sameTable_iff_of_extends hsame).mpr (SameTable.refl r))
  refine ⟨hiff, fun hwritten => hiff.mpr fun p hp hnone hanswers => ?_⟩
  -- two references would answer to the name, the one with the written alias and another one
  obtain ⟨s, hs, hanswers'⟩ := List.any_eq_true.mp hwritten
  rw [← List.map_fst_zip hextends.length_eq.le] at hs
  obtain ⟨p', hp', rfl⟩ := List.mem_map.mp hs
  have hsome : p'.1.aliasName.isSome := by
    obtain ⟨a, ha, -⟩ := (Option.any_eq_true _ _).mp hanswers'
    simp [ha]
  have hne : p' ≠ p := by
    rintro rfl
    simp [hnone] at hsome
  have hanswers'' : p'.2.answersTo name = true := by
    rw [answersTo, (hmem p' hp').aliasName hsome]
    exact hanswers'
  exact (not_apart_of_answersTo hanswers'' hanswers (.inr hnone) (hapart.forall hp' hp hne)).elim

/-- The alias of one reference may be the name of another to the same table. -/
theorem suggestsSame_withInsertions_iff_twice :
    let refs : List TableReference :=
      [⟨none, "p", some "x", none, 16⟩, ⟨none, "P", none, some 21, 21⟩]
    (∀ r ∈ refs, r.table ≠ "") ∧
      insertionsFor? .stops refs [] = some ([⟨21, "P", "p"⟩], ["p", "x"]) ∧
      SuggestsSame "p" refs (withInsertions refs [⟨21, "P", "p"⟩]) := by
  intro refs
  have hnames : ∀ r ∈ refs, r.table ≠ "" := by decide
  have hr : referenceNamed? "p" refs = some ⟨none, "p", some "x", none, 16⟩ := by decide +kernel
  have hfound : insertionsFor? .stops refs [] = some ([⟨21, "P", "p"⟩], ["p", "x"]) := by
    decide +kernel
  exact ⟨hnames, hfound,
    ((suggestsSame_withInsertions_iff hnames .stops [] hr).2 _ _ hfound).1.mpr (by decide +kernel)⟩

/-- The alias inserted for one table may be the name of another. -/
theorem not_suggestsSame_withInsertions :
    let refs : List TableReference :=
      [⟨none, "products", none, some 23, 23⟩, ⟨none, "p", some "x", none, 26⟩]
    let context : Context := { clause := .SELECT, isAfterDot := true, databasePart := some "p" }
    let schema : Schema :=
      ⟨[⟨"shop", [⟨"products", [⟨"price", "INT"⟩]⟩, ⟨"p", [⟨"id", "INT"⟩]⟩]⟩]⟩
    (∀ r ∈ refs, r.table ≠ "") ∧ (referenceNamed? "p" refs).isSome ∧
      suggestions { context with fromTables := refs } schema [] [] =
        [⟨"id", .column, some "INT"⟩] ∧
      ∀ overflow, (insertionsFor? overflow refs []).map (fun (insertions, _) =>
        suggestions { context with fromTables := withInsertions refs insertions } schema [] []) =
          some [⟨"price", .column, some "INT"⟩] := by
  refine ⟨by decide, by decide +kernel, by decide +kernel, ?_⟩
  rintro (_ | _) <;> decide +kernel

end SqlCompletion
