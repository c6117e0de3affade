import SqlCompletion.Proofs.Alias.Generation
import SqlCompletion.Proofs.Text.LowerCase

/-!
Generated aliases collide with no others, ignoring the case of ASCII letters.

* `isSmall_freeAlias?`: generated aliases are in small letters;
* `TableReference.Extends`: references to which an alias may be added;
* `TableReference.pairwise_apart_withInsertions`: an alias that is inserted is different from those
  of all other references.
-/

namespace SqlCompletion

open Text

/-! ### Aliases in small letters -/

lemma isSmall_of_isDigit {c : Char} (h : c.isDigit = true) : IsSmall c := by
  rw [isDigit_iff] at h
  refine isSmall_of_ascii (by omega) ?_
  rw [← Bool.not_eq_true, isUpper_iff]
  omega

lemma isSmall_aliasStem (table : String) : ∀ c ∈ (aliasStem table).toList, IsSmall c := by
  rw [aliasStem]
  split
  · rw [String.toList_ofList]
    exact fun c => isSmall_of_mem_lowerChar
  · intro c hc
    obtain rfl : c = 't' := by simpa using hc
    exact isSmall_of_ascii (by decide) (by decide)

section FreeAlias

variable {overflow : Overflow} {table : String} {taken : List String} {name : String}

/-- Generated aliases are in small letters. -/
lemma isSmall_freeAlias? (h : freeAlias? overflow table taken = some name) :
    ∀ c ∈ name.toList, IsSmall c := by
  obtain ⟨-, rfl | rfl | ⟨n, -, rfl⟩⟩ := freeAlias?_cases h
  · exact isSmall_aliasStem table
  · intro c hc
    rw [aliasPair, String.toList_ofList] at hc
    obtain ⟨d, -, hd⟩ := List.mem_flatMap.mp hc
    exact isSmall_of_mem_lowerChar hd
  · intro c hc
    rw [numberedAlias, String.toList_append] at hc
    rcases List.mem_append.mp hc with hc | hc
    · exact isSmall_aliasStem table c hc
    · rcases eq_or_isDigit_of_mem_repr hc with rfl | hdigit
      · exact isSmall_of_ascii (by decide) (by decide)
      · exact isSmall_of_isDigit hdigit

/-- A generated alias is in small letters already. -/
lemma lower_freeAlias? (h : freeAlias? overflow table taken = some name) : lower name = name :=
  lower_eq_of_equalIgnoringCase (isSmall_freeAlias? h) BEq.rfl

lemma equalIgnoringCase_comm (a b : String) : equalIgnoringCase a b = equalIgnoringCase b a :=
  BEq.comm

/-- A name whose small letters are taken is not that of a generated alias. -/
lemma equalIgnoringCase_freeAlias? (htable : table ≠ "")
    (hfree : freeAlias? overflow table taken = some name) {a : String} (ha : lower a ∈ taken) :
    equalIgnoringCase a name = false := by
  by_contra h
  rw [Bool.not_eq_false] at h
  rw [lower_eq_of_equalIgnoringCase (isSmall_freeAlias? hfree) h] at ha
  exact freeAlias?_notMem hfree htable ha

end FreeAlias

namespace TableReference

/-! ### References with more aliases -/

/-- The second reference is the first one, perhaps with an alias added to it. -/
structure Extends (r r' : TableReference) : Prop where
  database : r'.database = r.database
  table : r'.table = r.table
  aliasName : r.aliasName.isSome → r'.aliasName = r.aliasName

lemma extends_withInsertions (refs : List TableReference) (insertions : List Insertion) :
    List.Forall₂ Extends refs (withInsertions refs insertions) := by
  fun_induction withInsertions refs insertions with
  | case1 => exact .nil
  | case2 r refs position hplace insertion rest ih =>
      refine .cons ⟨rfl, rfl, fun halias => ?_⟩ ih
      obtain ⟨a, ha⟩ := Option.isSome_iff_exists.mp halias
      simp [ha]
  | case3 r refs insertions _ ih => exact .cons ⟨rfl, rfl, fun _ => rfl⟩ ih

/-! ### Inserted aliases -/

lemma lower_mem_writtenAliases {refs : List TableReference} {r : TableReference} {a : String}
    (hr : r ∈ refs) (ha : a ∈ r.aliasName) : lower a ∈ writtenAliases refs :=
  List.mem_filterMap.mpr ⟨r, hr, by simp [Option.mem_def.mp ha]⟩

lemma writtenAliases_subset_cons (r : TableReference) (refs : List TableReference) :
    writtenAliases refs ⊆ writtenAliases (r :: refs) :=
  List.filterMap_subset _ (List.subset_cons_self r refs)

section Inserted

variable {overflow : Overflow} {refs : List TableReference} {taken final : List String}
  {insertions : List Insertion}

/-- An inserted alias is none of the names taken. -/
lemma equalIgnoringCase_of_inserted (hnames : ∀ r ∈ refs, r.table ≠ "")
    (h : Fills overflow refs taken insertions final) {p : TableReference × TableReference}
    (hp : p ∈ refs.zip (withInsertions refs insertions)) (hnone : p.1.aliasName = none)
    {a b : String} (ha : lower a ∈ taken) (hb : b ∈ p.2.aliasName) :
    equalIgnoringCase a b = false := by
  induction h with
  | nil => simp at hp
  | @skip r rest _ _ _ hplace _ ih =>
      rw [withInsertions_of_none hplace, List.zip_cons_cons] at hp
      rcases List.mem_cons.mp hp with rfl | hp
      · rw [show r.aliasName = none from hnone] at hb
        cases hb
      · exact ih (fun r' hr' => hnames r' (List.mem_cons_of_mem r hr')) hp ha
  | @insert r rest _ _ name _ _ hplace hfree _ ih =>
      rw [withInsertions_of_some hplace, List.zip_cons_cons] at hp
      rcases List.mem_cons.mp hp with rfl | hp
      · have hnone' : r.aliasName = none := hnone
        obtain rfl : name = b := by simpa [hnone'] using hb
        exact equalIgnoringCase_freeAlias? (hnames r (List.mem_cons_self ..)) hfree ha
      · exact ih (fun r' hr' => hnames r' (List.mem_cons_of_mem r hr')) hp
          (List.mem_cons_of_mem _ ha)

/-- Where one of two references had no alias, their aliases differ by more than the case of ASCII
letters. -/
def Apart (p p' : TableReference × TableReference) : Prop :=
  p.1.aliasName = none ∨ p'.1.aliasName = none →
    ∀ a ∈ p.2.aliasName, ∀ b ∈ p'.2.aliasName, equalIgnoringCase a b = false

instance : Std.Symm Apart where
  symm p p' h hnone a ha b hb := by
    rw [equalIgnoringCase_comm]
    exact h hnone.symm b hb a ha

/-- A reference whose alias is taken is apart from a later one. -/
lemma apart_of_taken (hnames : ∀ r ∈ refs, r.table ≠ "")
    (h : Fills overflow refs taken insertions final) {p p' : TableReference × TableReference}
    (hp' : p' ∈ refs.zip (withInsertions refs insertions))
    (htaken : ∀ a ∈ p.2.aliasName, lower a ∈ taken)
    (hwritten : p.1.aliasName = none → ∀ a ∈ p.2.aliasName, ∀ b ∈ p'.1.aliasName,
      equalIgnoringCase a b = false) : Apart p p' := by
  intro hnone a ha b hb
  cases halias : p'.1.aliasName with
  | none => exact equalIgnoringCase_of_inserted hnames h hp' halias (htaken a ha) hb
  | some c =>
      have hextends := (List.forall₂_iff_zip.mp (extends_withInsertions refs _)).2 hp'
      rw [hextends.aliasName (by simp [halias])] at hb
      exact hwritten (hnone.resolve_right (by simp [halias])) a ha b hb

/-- An alias that is inserted differs from those of all other references by more than the case of
ASCII letters. -/
lemma pairwise_apart_of_fills (hnames : ∀ r ∈ refs, r.table ≠ "")
    (h : Fills overflow refs taken insertions final) (htaken : writtenAliases refs ⊆ taken) :
    (refs.zip (withInsertions refs insertions)).Pairwise Apart := by
  induction h with
  | nil => exact .nil
  | @skip r rest taken _ _ hplace hrest ih =>
      obtain ⟨htable, hnames⟩ := List.forall_mem_cons.mp hnames
      rw [withInsertions_of_none hplace, List.zip_cons_cons, List.pairwise_cons]
      have hwritten : writtenAliases rest ⊆ taken :=
        List.Subset.trans (writtenAliases_subset_cons r rest) htaken
      refine ⟨fun p hp => ?_, ih hnames hwritten⟩
      refine apart_of_taken hnames hrest hp
        (fun a ha => htaken (lower_mem_writtenAliases (List.mem_cons_self ..) ha)) ?_
      intro hnone a ha
      rw [show r.aliasName = none from hnone] at ha
      cases ha
  | @insert r rest taken _ name _ _ hplace hfree hrest ih =>
      obtain ⟨htable, hnames⟩ := List.forall_mem_cons.mp hnames
      have hwritten : writtenAliases rest ⊆ taken :=
        List.Subset.trans (writtenAliases_subset_cons r rest) htaken
      rw [withInsertions_of_some hplace, List.zip_cons_cons, List.pairwise_cons]
      refine ⟨fun p hp => ?_, ih hnames (List.subset_cons_of_subset _ hwritten)⟩
      refine apart_of_taken hnames hrest hp (fun a ha => ?_) fun hnone a ha b hb => ?_
      · cases halias : r.aliasName with
        | none =>
            obtain rfl : name = a := by simpa [halias] using ha
            exact List.mem_cons_self ..
        | some c =>
            obtain rfl : c = a := by simpa [halias] using ha
            exact List.mem_cons_of_mem _
              (htaken (lower_mem_writtenAliases (List.mem_cons_self ..) halias))
      · have hnone' : r.aliasName = none := hnone
        obtain rfl : name = a := by simpa [hnone'] using ha
        rw [equalIgnoringCase_comm]
        exact equalIgnoringCase_freeAlias? htable hfree
          (hwritten (lower_mem_writtenAliases (List.of_mem_zip hp).1 hb))

/-- The aliases inserted for references with table names collide with no others. -/
lemma pairwise_apart_withInsertions (hnames : ∀ r ∈ refs, r.table ≠ "")
    (h : insertionsFor? overflow refs taken = some (insertions, final)) :
    (refs.zip (withInsertions refs insertions)).Pairwise Apart :=
  pairwise_apart_of_fills hnames (fillAliases?_eq_some_iff.mp h) (List.subset_append_left _ _)

end Inserted

end TableReference

end SqlCompletion
