import SqlCompletion.Proofs.Alias.Ladder
import SqlCompletion.Proofs.TableReference.Places
import SqlCompletion.Proofs.Token.Insertion

/-!
The aliases that are generated: they are free, and for tables with bare names they are words.

* `freeAlias?_notMem`: the alias of a table with a name is not among the names taken;
* `isWord_freeAlias?`: the alias of a table whose name is a word is a word, if the counter was not
  to be stopped;
* `length_spelling_le_of_freeAlias?`: it may be a keyword, but only one of two letters;
* `Fills`: the aliases that the references of a query get one after another;
* `isSome_insertionsFor?`: they are found where names and references are no more than 2^31;
* `TableReference.withInsertions`: references with the aliases that are inserted for them.
-/

namespace SqlCompletion

open Text

/-! ### The alias of one table -/

section FreeAlias

variable {overflow : Overflow} {table : String} {taken : List String} {name : String}

/-- The alias of a table is its first letter, its first two characters or its first letter with a
number, and it is free if the table has a name. -/
lemma freeAlias?_cases (h : freeAlias? overflow table taken = some name) :
    (table ≠ "" → name ∉ taken) ∧ (name = aliasStem table ∨ name = aliasPair table ∨
      ∃ n, freeNumber? overflow (aliasStem table) taken = some n ∧
        name = numberedAlias (aliasStem table) n) := by
  rw [freeAlias?] at h
  split_ifs at h with hempty hstem hpair
  · obtain rfl : table = "" := by simpa using hempty
    obtain rfl := Option.some.inj h
    exact ⟨fun hne => absurd rfl hne, .inl rfl⟩
  · obtain rfl := Option.some.inj h
    exact ⟨fun _ => by simpa using hstem, .inl rfl⟩
  · obtain rfl := Option.some.inj h
    exact ⟨fun _ => by simpa using hpair, .inr (.inl rfl)⟩
  · obtain ⟨n, hn, rfl⟩ := Option.map_eq_some_iff.mp h
    obtain ⟨-, -, -, -, hfree, -⟩ := freeNumber?_eq_some_iff.mp hn
    exact ⟨fun _ => hfree, .inr (.inr ⟨n, hn, rfl⟩)⟩

/-- The alias of a table with a name is free. -/
lemma freeAlias?_notMem (h : freeAlias? overflow table taken = some name) (htable : table ≠ "") :
    name ∉ taken :=
  (freeAlias?_cases h).1 htable

/-- An alias that is found before the counter would be stopped is found however the program is
built. -/
lemma freeAlias?_of_stops (h : freeAlias? .stops table taken = some name) :
    freeAlias? overflow table taken = some name := by
  rw [freeAlias?] at h ⊢
  split_ifs at h ⊢
  · exact h
  · exact h
  · exact h
  · obtain ⟨n, hn, rfl⟩ := Option.map_eq_some_iff.mp h
    rw [freeNumber?_of_stops hn, Option.map_some]

end FreeAlias

/-! ### Aliases of words -/

/-- The small letter of a character of a word is a character of a word, and opens one where the
character itself does. -/
lemma lowerChar_of_isWordChar {c : Char} (h : isWordChar c = true) :
    ∃ d, lowerChar c = [d] ∧ isWordChar d = true ∧ (opensWord c = true → opensWord d = true) := by
  have hascii := isAsciiClass_isWordChar c h
  refine ⟨c.toLower, by rw [lowerChar, if_pos hascii], ?_, fun hopens => ?_⟩
  · exact imp_of_ascii (p := isWordChar) (q := (isWordChar ·.toLower)) (by decide +kernel) hascii h
  · exact imp_of_ascii (p := opensWord) (q := (opensWord ·.toLower)) (by decide +kernel) hascii
      hopens

/-- A letter in a word may open one. -/
lemma opensWord_of_isAlphabetic {c : Char} (h : isWordChar c = true) (hc : isAlphabetic c = true) :
    opensWord c = true :=
  imp_of_ascii (p := fun c => isWordChar c && isAlphabetic c) (q := opensWord) (by decide +kernel)
    (isAsciiClass_isWordChar c h) (by rw [h, hc]; rfl)

lemma isWord_aliasStem {table : String} (h : IsWord table.toList) :
    IsWord (aliasStem table).toList := by
  rw [aliasStem]
  cases hfind : table.toList.find? isAlphabetic with
  | none => decide
  | some c =>
      have hc := h.isWordChar c (List.mem_of_find?_eq_some hfind)
      obtain ⟨d, hd, -, hopens⟩ := lowerChar_of_isWordChar hc
      simp only [hd, String.toList_ofList]
      exact ⟨hopens (opensWord_of_isAlphabetic hc (List.find?_some hfind)), by simp⟩

lemma isWord_aliasPair {table : String} (h : IsWord table.toList) :
    IsWord (aliasPair table).toList := by
  rw [aliasPair, String.toList_ofList]
  cases htable : table.toList with
  | nil => simp [htable, IsWord] at h
  | cons c rest =>
      rw [htable] at h
      obtain ⟨d, hd, -, hopens⟩ := lowerChar_of_isWordChar (isWordChar_of_opensWord h.1)
      cases rest with
      | nil => simpa [hd, IsWord] using hopens h.1
      | cons e rest =>
          obtain ⟨f, hf, hword, -⟩ := lowerChar_of_isWordChar (h.2 e (by simp))
          simpa [hd, hf, IsWord] using ⟨hopens h.1, hword⟩

lemma isWord_append_repr {stem : String} (h : IsWord stem.toList) (n : ℕ) :
    IsWord (stem ++ n.repr).toList := by
  rw [String.toList_append]
  cases hstem : stem.toList with
  | nil => simp [hstem, IsWord] at h
  | cons c rest =>
      rw [hstem] at h
      refine ⟨h.1, fun d hd => ?_⟩
      rcases List.mem_append.mp hd with hd | hd
      · exact h.2 d hd
      · simp [isWordChar, Char.isAlphanum, isDigit_of_mem_natRepr hd]

/-- The alias of a table whose name is a word is a word, if it is found before the counter would be
stopped. -/
lemma isWord_freeAlias? {table : String} (h : IsWord table.toList) {taken : List String}
    {name : String} (hfree : freeAlias? .stops table taken = some name) : IsWord name.toList := by
  obtain ⟨-, rfl | rfl | ⟨n, hn, rfl⟩⟩ := freeAlias?_cases hfree
  · exact isWord_aliasStem h
  · exact isWord_aliasPair h
  · obtain ⟨i, -, hi, rfl, -⟩ := freeNumber?_eq_some_iff.mp hn
    rw [Overflow.values_stops] at hi
    rw [numberedAlias_ofNat _ (by omega)]
    exact isWord_append_repr (isWord_aliasStem h) i

/-! ### Aliases that are keywords -/

/-- A word that is a keyword is spelled like it and has no digits. -/
lemma spelling_of_wordKind {w : List Char} {k : Keyword} (h : wordKind w = .keyword k) :
    w.map Char.toUpper = k.spelling.toList ∧ ∀ c ∈ w, c.isDigit = false := by
  have hspelling : w.map Char.toUpper = k.spelling.toList := by
    rw [← wordKind_eq_keyword_iff.mp h, upperAscii, String.toList_ofList]
  refine ⟨hspelling, fun c hc => ?_⟩
  by_contra hdigit
  rw [Bool.not_eq_false] at hdigit
  have hletters : ∀ k ∈ Keyword.all, (k.spelling.toList.all fun c => !c.isDigit) = true := by
    decide +kernel
  have hmem : c.toUpper ∈ k.spelling.toList := hspelling ▸ List.mem_map_of_mem hc
  have hascii : c.toNat < 128 := by
    rw [isDigit_iff] at hdigit
    omega
  have hupper : c.toUpper.isDigit = true :=
    imp_of_ascii (p := Char.isDigit) (q := (Char.isDigit ·.toUpper)) (by decide +kernel) hascii
      hdigit
  have hletter := List.all_eq_true.mp (hletters k (Keyword.mem_all k)) _ hmem
  simp [hupper] at hletter

lemma length_aliasStem_le {table : String} (h : IsWord table.toList) :
    (aliasStem table).toList.length ≤ 1 := by
  rw [aliasStem]
  cases hfind : table.toList.find? isAlphabetic with
  | none => decide
  | some c =>
      have hc := h.isWordChar c (List.mem_of_find?_eq_some hfind)
      obtain ⟨d, hd, -, -⟩ := lowerChar_of_isWordChar hc
      simp [hd]

lemma length_flatMap_lowerChar {cs : List Char} (h : ∀ c ∈ cs, isWordChar c = true) :
    (cs.flatMap lowerChar).length = cs.length := by
  induction cs with
  | nil => rfl
  | cons c cs ih =>
      obtain ⟨d, hd, -, -⟩ := lowerChar_of_isWordChar (h c (List.mem_cons_self ..))
      have hcs := ih fun c' hc' => h c' (List.mem_cons_of_mem c hc')
      rw [List.flatMap_cons, hd, List.length_append, hcs]
      simp [Nat.add_comm]

lemma length_aliasPair_le {table : String} (h : IsWord table.toList) :
    (aliasPair table).toList.length ≤ 2 := by
  rw [aliasPair, String.toList_ofList,
    length_flatMap_lowerChar fun c hc => h.isWordChar c (List.mem_of_mem_take hc)]
  exact List.length_take_le 2 _

/-- A keyword that is generated as an alias has two letters. -/
lemma length_spelling_le_of_freeAlias? {overflow : Overflow} {table : String}
    (h : IsWord table.toList) {taken : List String} {name : String}
    (hfree : freeAlias? overflow table taken = some name) {k : Keyword}
    (hk : wordKind name.toList = .keyword k) : k.spelling.toList.length ≤ 2 := by
  obtain ⟨hspelling, hdigits⟩ := spelling_of_wordKind hk
  rw [← hspelling, List.length_map]
  obtain ⟨-, rfl | rfl | ⟨n, -, rfl⟩⟩ := freeAlias?_cases hfree
  · exact (length_aliasStem_le h).trans one_le_two
  · exact length_aliasPair_le h
  · -- a numbered alias has a digit
    exfalso
    obtain ⟨d, hd, hdigit⟩ := exists_isDigit_mem_repr n.toInt
    have hnot := hdigits d (by simp [numberedAlias, hd])
    rw [hdigit] at hnot
    cases hnot

/-! ### The aliases of all references -/

/-- The aliases that references get one after another among names that are taken, and the names
taken in the end. -/
inductive Fills (overflow : Overflow) :
    List TableReference → List String → List Insertion → List String → Prop
  | nil {taken} : Fills overflow [] taken [] taken
  | skip {r refs taken insertions final} : r.aliasPlace = none →
      Fills overflow refs taken insertions final →
      Fills overflow (r :: refs) taken insertions final
  | insert {r refs taken position name insertions final} : r.aliasPlace = some position →
      freeAlias? overflow r.table taken = some name →
      Fills overflow refs (lower name :: taken) insertions final →
      Fills overflow (r :: refs) taken (⟨position, r.table, name⟩ :: insertions) final

section FillAliases

variable {overflow : Overflow} {refs : List TableReference} {taken final : List String}
  {insertions : List Insertion}

lemma fillAliases?_eq_some_iff :
    fillAliases? overflow refs taken = some (insertions, final) ↔
      Fills overflow refs taken insertions final := by
  constructor
  · intro h
    fun_induction fillAliases? overflow refs taken generalizing insertions with
    | case1 =>
        obtain ⟨rfl, rfl⟩ := Prod.mk.inj (Option.some.inj h)
        exact .nil
    | case2 r refs taken hplace ih => exact .skip hplace (ih h)
    | case3 => cases h
    | case4 r refs taken position hplace name hfree ih =>
        obtain ⟨⟨others, final'⟩, hothers, heq⟩ := Option.map_eq_some_iff.mp h
        obtain ⟨rfl, rfl⟩ := Prod.mk.inj heq
        exact .insert hplace hfree (ih hothers)
  · intro h
    induction h with
    | nil => rfl
    | skip hplace _ ih => rw [fillAliases?, hplace, ih]
    | insert hplace hfree _ ih => simp [fillAliases?, hplace, hfree, ih]

/-- With no more than 2^31 names and references, aliases are found. -/
lemma isSome_fillAliases? (h : taken.toFinset.card + refs.length ≤ 2 ^ 31) :
    (fillAliases? overflow refs taken).isSome := by
  induction refs generalizing taken with
  | nil => rfl
  | cons r refs ih =>
      rw [List.length_cons] at h
      cases hplace : r.aliasPlace with
      | none =>
          rw [fillAliases?, hplace]
          exact ih (by omega)
      | some position =>
          have hlt : taken.toFinset.card < 2 ^ 31 := by omega
          obtain ⟨name, hname⟩ :=
            Option.isSome_iff_exists.mp (isSome_freeAlias? overflow r.table hlt)
          have hcard : (lower name :: taken).toFinset.card ≤ taken.toFinset.card + 1 := by
            rw [List.toFinset_cons]
            exact Finset.card_insert_le _ _
          simp only [fillAliases?, hplace, hname, Option.isSome_map]
          exact ih (by omega)

/-- The aliases of a query are found if there are no more than 2^31 names that are written or taken
and references. -/
lemma isSome_insertionsFor? (overflow : Overflow)
    (h : (writtenAliases refs ++ taken).toFinset.card + refs.length ≤ 2 ^ 31) :
    (insertionsFor? overflow refs taken).isSome :=
  isSome_fillAliases? h

namespace Fills

/-- Aliases that are found before the counter would be stopped are found however the program is
built. -/
lemma of_stops (h : Fills .stops refs taken insertions final) :
    Fills overflow refs taken insertions final := by
  induction h with
  | nil => exact .nil
  | skip hplace _ ih => exact .skip hplace ih
  | insert hplace hfree _ ih => exact .insert hplace (freeAlias?_of_stops hfree) ih

/-- References without a place for an alias get none. -/
lemma of_forall_eq_none (h : ∀ r ∈ refs, r.aliasPlace = none) :
    Fills overflow refs taken [] taken := by
  induction refs with
  | nil => exact .nil
  | cons r refs ih =>
      obtain ⟨hr, hrefs⟩ := List.forall_mem_cons.mp h
      exact .skip hr (ih hrefs)

/-- The insertions for references are where the references want an alias, in order. -/
lemma map_position (h : Fills overflow refs taken insertions final) :
    insertions.map Insertion.position = TableReference.aliasPlaces refs := by
  induction h with
  | nil => rfl
  | skip hplace _ ih => rw [ih, TableReference.aliasPlaces_cons, hplace]; rfl
  | insert hplace _ _ ih =>
      rw [TableReference.aliasPlaces_cons, hplace, List.map_cons, ih]
      rfl

/-- The alias that is inserted is one of those generated for the reference at its place. -/
lemma exists_of_mem (h : Fills overflow refs taken insertions final) {insertion : Insertion}
    (hmem : insertion ∈ insertions) :
    ∃ r ∈ refs, r.aliasPlace = some insertion.position ∧
      ∃ taken, freeAlias? overflow r.table taken = some insertion.aliasName := by
  induction h with
  | nil => simp at hmem
  | @skip r refs _ _ _ _ _ ih =>
      obtain ⟨r', hr', hfree⟩ := ih hmem
      exact ⟨r', List.mem_cons_of_mem r hr', hfree⟩
  | @insert r refs taken _ _ _ _ hplace hfree _ ih =>
      rcases List.mem_cons.mp hmem with rfl | hmem
      · exact ⟨r, List.mem_cons_self .., hplace, taken, hfree⟩
      · obtain ⟨r', hr', hfree'⟩ := ih hmem
        exact ⟨r', List.mem_cons_of_mem r hr', hfree'⟩

end Fills

end FillAliases

namespace TableReference

/-- The references with the aliases that are inserted for them, the insertions being in the order of
the references that have a place for one. -/
def withInsertions : List TableReference → List Insertion → List TableReference
  | [], _ => []
  | r :: refs, insertions =>
    match r.aliasPlace, insertions with
    | some _, insertion :: rest =>
      { r with
        aliasName := r.aliasName.or (some insertion.aliasName)
        aliasPlace := none } :: withInsertions refs rest
    | _, insertions => r :: withInsertions refs insertions

lemma withInsertions_of_none {r : TableReference} (h : r.aliasPlace = none)
    (refs : List TableReference) (insertions : List Insertion) :
    withInsertions (r :: refs) insertions = r :: withInsertions refs insertions := by
  simp [withInsertions, h]

lemma withInsertions_of_some {r : TableReference} {p : ℕ} (h : r.aliasPlace = some p)
    (refs : List TableReference) (insertion : Insertion) (rest : List Insertion) :
    withInsertions (r :: refs) (insertion :: rest) =
      { r with
        aliasName := r.aliasName.or (some insertion.aliasName)
        aliasPlace := none } :: withInsertions refs rest := by
  simp [withInsertions, h]

end TableReference

end SqlCompletion
