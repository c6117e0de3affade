import SqlCompletion.Proofs.Alias.Collision

/-!
The aliases that are generated for the references of one query are new names.

* `Fills.map_place`, `Fills.mem_names_iff`: who gets an alias, and the names taken in the end;
* `Fills.notMem`, `Fills.nodup`: no alias is a name that was taken, and no two aliases are the same;
* `insertionsFor?_fresh`: all of it for the references of a query, where the aliases that are written
  are taken from the start;
* `insertionsFor?_overflow`: there may be so many names that no alias is found.
-/

namespace SqlCompletion

open Text

/-- The aliases written in references, in small letters. -/
lemma mem_writtenAliases_iff {refs : List TableReference} {name : String} :
    name ∈ writtenAliases refs ↔ ∃ r ∈ refs, ∃ a ∈ r.aliasName, name = lower a := by
  simp [writtenAliases, eq_comm]

/-! ### One reference after another -/

namespace Fills

variable {overflow : Overflow} {refs : List TableReference} {taken final : List String}
  {insertions : List Insertion}

/-- The references that have a place for an alias get one, in order. -/
lemma map_place (h : Fills overflow refs taken insertions final) :
    insertions.map (fun i => (i.position, i.table)) =
      refs.filterMap fun r => r.aliasPlace.map fun place => (place, r.table) := by
  induction h with
  | nil => rfl
  | skip hplace _ ih =>
      rw [ih]
      simp [hplace]
  | insert hplace _ _ ih =>
      rw [List.map_cons, ih]
      simp [hplace]

/-- The names taken in the end are those taken before and the aliases. -/
lemma mem_names_iff (h : Fills overflow refs taken insertions final) {name : String} :
    name ∈ final ↔ name ∈ taken ∨ name ∈ insertions.map Insertion.aliasName := by
  induction h with
  | nil => simp
  | skip _ _ ih => exact ih
  | insert _ hfree _ ih =>
      rw [lower_freeAlias? hfree] at ih
      rw [ih, List.map_cons, List.mem_cons, List.mem_cons, or_left_comm, or_assoc]

/-- No alias is a name that was taken. -/
lemma notMem (h : Fills overflow refs taken insertions final) (hnames : ∀ r ∈ refs, r.table ≠ "")
    {insertion : Insertion} (hmem : insertion ∈ insertions) : insertion.aliasName ∉ taken := by
  induction h with
  | nil => simp at hmem
  | skip _ _ ih => exact ih (List.forall_mem_cons.mp hnames).2 hmem
  | insert _ hfree _ ih =>
      obtain ⟨hname, hnames⟩ := List.forall_mem_cons.mp hnames
      rcases List.mem_cons.mp hmem with rfl | hmem
      · exact freeAlias?_notMem hfree hname
      · exact fun htaken => ih hnames hmem (List.mem_cons_of_mem _ htaken)

/-- No two aliases are the same, since each is taken when the next ones are chosen. -/
lemma nodup (h : Fills overflow refs taken insertions final)
    (hnames : ∀ r ∈ refs, r.table ≠ "") : (insertions.map Insertion.aliasName).Nodup := by
  induction h with
  | nil => exact List.nodup_nil
  | skip _ _ ih => exact ih (List.forall_mem_cons.mp hnames).2
  | insert _ hfree hrest ih =>
      obtain ⟨-, hnames⟩ := List.forall_mem_cons.mp hnames
      rw [List.map_cons, List.nodup_cons]
      refine ⟨fun hmem => ?_, ih hnames⟩
      obtain ⟨insertion, hinsertion, heq⟩ := List.mem_map.mp hmem
      have hnew := hrest.notMem hnames hinsertion
      rw [heq, lower_freeAlias? hfree] at hnew
      exact hnew (List.mem_cons_self ..)

end Fills

/-! ### The references of a query -/

/-- **The aliases of a query do not collide.** For references with table names and any names that
are taken, aliases are found if the names that are written or taken and the references are no more
than 2^31; and wherever they are found, the references that have a place for an alias get one each,
in order. The aliases are all different, and none is a name that is taken or the lower case of an
alias written anywhere among the references. The names taken in the end are those taken before, the
aliases written, in small letters, and the aliases that were generated. -/
theorem insertionsFor?_fresh {refs : List TableReference} (hnames : ∀ r ∈ refs, r.table ≠ "")
    (overflow : Overflow) (taken : List String) :
    ((writtenAliases refs ++ taken).toFinset.card + refs.length ≤ 2 ^ 31 →
      (insertionsFor? overflow refs taken).isSome) ∧
    ∀ insertions final, insertionsFor? overflow refs taken = some (insertions, final) →
      insertions.map (fun i => (i.position, i.table)) =
        refs.filterMap (fun r => r.aliasPlace.map fun place => (place, r.table)) ∧
      (insertions.map Insertion.aliasName).Nodup ∧
      (∀ i ∈ insertions,
        i.aliasName ∉ taken ∧ ∀ r ∈ refs, ∀ a ∈ r.aliasName, i.aliasName ≠ lower a) ∧
      ∀ name, name ∈ final ↔
        name ∈ taken ∨ (∃ r ∈ refs, ∃ a ∈ r.aliasName, name = lower a) ∨
          name ∈ insertions.map Insertion.aliasName := by
  refine ⟨isSome_insertionsFor? overflow, fun insertions final h => ?_⟩
  have hfills := fillAliases?_eq_some_iff.mp h
  refine ⟨hfills.map_place, hfills.nodup hnames, fun i hi => ?_, fun name => ?_⟩
  · have hnew := hfills.notMem hnames hi
    rw [List.mem_append, not_or, mem_writtenAliases_iff] at hnew
    exact ⟨hnew.2, fun r hr a ha heq => hnew.1 ⟨r, hr, a, ha, heq⟩⟩
  · rw [hfills.mem_names_iff, List.mem_append, mem_writtenAliases_iff,
      or_comm (a := ∃ r ∈ refs, _), or_assoc]

/-- A stem of two characters that two tables share, and one that an alias takes which is written
after them. -/
theorem insertionsFor?_fresh_shared :
    let refs : List TableReference :=
      [⟨none, "İstanbul", none, some 1, 1⟩, ⟨none, "products", none, some 2, 2⟩,
        ⟨none, "İzmir", none, some 3, 3⟩, ⟨none, "prices", none, some 4, 4⟩,
        ⟨some "shop", "offers", some "P", none, 5⟩]
    let insertions : List Insertion :=
      [⟨1, "İstanbul", "i̇"⟩, ⟨2, "products", "p1"⟩, ⟨3, "İzmir", "i̇z"⟩, ⟨4, "prices", "p2"⟩]
    (∀ r ∈ refs, r.table ≠ "") ∧
      insertionsFor? .stops refs ["pr"] =
        some (insertions, ["p2", "i̇z", "p1", "i̇", "p", "pr"]) ∧
      (insertions.map Insertion.aliasName).Nodup := by
  intro refs insertions
  have hnames : ∀ r ∈ refs, r.table ≠ "" := by decide
  have hfound : insertionsFor? .stops refs ["pr"] =
      some (insertions, ["p2", "i̇z", "p1", "i̇", "p", "pr"]) := by decide +kernel
  exact ⟨hnames, hfound, ((insertionsFor?_fresh hnames .stops ["pr"]).2 _ _ hfound).2.1⟩

/-- **There may be so many names that no alias is found.** Where the letter, the pair and all numbers
that the counter comes to are taken, a reference that has a place for an alias gets none. -/
theorem insertionsFor?_overflow :
    let refs : List TableReference := [⟨none, "products", none, some 22, 22⟩]
    let taken (overflow : Overflow) : List String :=
      "p" :: "pr" :: (List.range' 1 overflow.values).map fun n => numberedAlias "p" (Int32.ofNat n)
    (∀ r ∈ refs, r.table ≠ "") ∧ insertionsFor? .stops refs (taken .stops) = none ∧
      insertionsFor? .wraps refs (taken .wraps) = none := by
  intro refs taken
  have hstem : aliasStem "products" = "p" := by decide +kernel
  have hpair : aliasPair "products" = "pr" := by decide +kernel
  have hnone : ∀ overflow, insertionsFor? overflow refs (taken overflow) = none := fun overflow => by
    have hnumbers : freeNumber? overflow "p" (taken overflow) = none := by
      refine freeNumber?_eq_none_iff.mpr fun i h1 hi => ?_
      refine List.mem_cons_of_mem _ (List.mem_cons_of_mem _ (List.mem_map.mpr ⟨i, ?_, rfl⟩))
      exact List.mem_range'_1.mpr ⟨h1, by omega⟩
    have halias : freeAlias? overflow "products" (taken overflow) = none := by
      rw [freeAlias?_of_taken (by decide) (by simp [hstem, taken]) (by simp [hpair, taken]), hstem,
        hnumbers, Option.map_none]
    show fillAliases? overflow refs (taken overflow) = none
    rw [fillAliases?]
    simp only [halias]
  exact ⟨by decide, hnone .stops, hnone .wraps⟩

end SqlCompletion
