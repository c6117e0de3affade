import SqlCompletion.Proofs.Alias.Generation
import SqlCompletion.Proofs.Alias.Splice
import SqlCompletion.Proofs.TableReference.Loss

/-!
Queries into which aliases were written, read again.

* `tokenize_applyInsertions`: the tokens are those of the query, with the aliases between;
* `BareNames`: every table is named by a word without backquotes;
* `ReadBack`: the references are read again, with the aliases that were inserted;
* `readBack_iff`: so they are unless an alias is a keyword, or a list goes on past an `AS` after a
  reference without an alias;
* `not_readBack`: both may happen.
-/

namespace SqlCompletion

open Text TableReference

/-! ### The tokens of the text -/

/-- A lexeme of a text and its place among the others. -/
lemma isWritable_of_forall {words : ℕ → Option String} {start : ℕ} {ls : List Lexeme}
    (h : ∀ a l b, ls = a ++ l :: b → ∀ w,
      words (start + byteLength (covered a) + byteLength l.text) = some w →
        l.kind = .identifier ∧ l.text = l.value ∧ IsWord w.toList) :
    IsWritable words start ls := by
  induction ls generalizing start with
  | nil => trivial
  | cons l ls ih =>
      refine ⟨h [] l ls rfl, ih fun a l' b hls w hw => ?_⟩
      refine h (l :: a) l' b (by rw [hls]; rfl) w ?_
      rw [covered_cons, byteLength_append, ← Nat.add_assoc]
      exact hw

lemma unplaced_placeLexemes_spaced (word : Option String) (start : ℕ) :
    (placeLexemes start (spaced word)).map Token.unplaced = spacedTokens word := by
  cases word with
  | none => rfl
  | some w =>
      simp [spaced, spacedTokens, placeLexemes, Lexeme.space, Lexeme.word, Lexeme.plain,
        Token.unplaced]

/-- Lexemes with words after them are the tokens with words after them. -/
lemma unplaced_placeLexemes_written (words : ℕ → Option String) (start start' : ℕ)
    (ls : List Lexeme) :
    (placeLexemes start' (written words start ls)).map Token.unplaced =
      respell words (placeLexemes start ls) := by
  induction ls generalizing start start' with
  | nil => rfl
  | cons l ls ih =>
      rw [written, placeLexemes_cons, placeLexemes_cons, respell_cons, List.map_cons,
        placeLexemes_append, List.map_append, ih]
      rw [unplaced_placeLexemes_spaced]
      rfl

lemma respell_none (tokens : List Token) :
    respell (fun _ => none) tokens = tokens.map Token.unplaced := by
  induction tokens with
  | nil => rfl
  | cons t tokens ih => rw [respell_cons, ih]; rfl

/-- At the ends of tokens, all insertions together write their aliases after these tokens. -/
lemma applyInsertions_of_sublist {sql : String} {insertions : List Insertion}
    (h : (insertions.map Insertion.position).Sublist ((tokenize sql).map Token.stop)) :
    applyInsertions sql insertions =
      String.ofList (covered (written (aliasAt insertions) 0 (lexemes sql.toList))) := by
  have hincreasing := (pairwise_stop_tokenize sql).sublist h
  have hsplice := foldr_splice [] (fun _ => text_ne_nil_of_mem_lexemes) h
    (fun _ => aliasAt_of_mem hincreasing) (fun p _ => aliasAt_eq_none_iff.mpr)
  rw [List.nil_append, covered_lexemes] at hsplice
  rw [applyInsertions, fromLast_of_increasing hincreasing, List.foldl_reverse, hsplice]
  rfl

/-- The tokens of the text are those of the query, with the aliases after the words at their
places. -/
lemma tokenize_applyInsertions {sql : String} {insertions : List Insertion}
    (h : (insertions.map Insertion.position).Sublist ((tokenize sql).map Token.stop))
    (hwritable : IsWritable (aliasAt insertions) 0 (lexemes sql.toList)) :
    (tokenize (applyInsertions sql insertions)).map Token.unplaced =
      respell (aliasAt insertions) (tokenize sql) := by
  have hread := (lexemes_written (by rw [covered_lexemes]) hwritable).1
  rw [applyInsertions_of_sublist h, tokenize, String.toList_ofList, hread, tokenize]
  exact unplaced_placeLexemes_written _ 0 0 _

/-! ### The references of the text -/

namespace TableReference

/-- What a reference says: its table and its alias, wherever it stands. -/
def names (r : TableReference) : Option String × String × Option String :=
  (r.database, r.table, r.aliasName)

lemma names_withWord_none (r : TableReference) : (r.withWord fun _ => none).names = r.names := by
  simp [names, withWord]

/-- The aliases that are inserted for references are those at the places of the references. -/
lemma names_withInsertions {overflow : Overflow} {words : ℕ → Option String}
    {refs : List TableReference} {taken final : List String} {insertions : List Insertion}
    (hfills : Fills overflow refs taken insertions final)
    (h : ∀ insertion ∈ insertions, words insertion.position = some insertion.aliasName) :
    (withInsertions refs insertions).map names = (refs.map (withWord words)).map names := by
  induction hfills with
  | nil => rfl
  | skip hplace _ ih =>
      rw [withInsertions_of_none hplace, List.map_cons, List.map_cons, List.map_cons, ih h]
      simp [names, withWord, hplace]
  | insert hplace _ _ ih =>
      have hword := h _ (List.mem_cons_self ..)
      rw [withInsertions_of_some hplace, List.map_cons, List.map_cons, List.map_cons,
        ih fun i hi => h i (List.mem_cons_of_mem _ hi)]
      simp [names, withWord, hplace, hword]

/-- A reference whose name ends at one of the places has an `AS` without a name after it, then a
comma and another reference. -/
def goesOnPastAs (places : List ℕ) : List Token → Bool
  | [] => false
  | t :: after =>
    (places.contains t.stop && continuesPastAs after) || goesOnPastAs places after

lemma goesOnPastAs_eq_false_iff {places : List ℕ} {tokens : List Token} :
    goesOnPastAs places tokens = false ↔
      ∀ t after, t :: after <:+ tokens → t.stop ∈ places → continuesPastAs after = false := by
  induction tokens with
  | nil => simp [goesOnPastAs]
  | cons t' rest ih =>
      rw [goesOnPastAs, Bool.or_eq_false_iff, ih]
      constructor
      · rintro ⟨hfirst, hrest⟩ t after hsuffix hplace
        rcases List.suffix_cons_iff.mp hsuffix with heq | hsuffix
        · obtain ⟨rfl, rfl⟩ := List.cons.inj heq
          simpa [hplace] using hfirst
        · exact hrest t after hsuffix hplace
      · intro h
        refine ⟨?_, fun t after hsuffix => h t after (hsuffix.trans (List.suffix_cons t' rest))⟩
        by_cases hplace : t'.stop ∈ places
        · rw [h t' rest (List.suffix_refl _) hplace, Bool.and_false]
        · simp [hplace]

end TableReference

lemma wordKind_eq_identifier_iff {w : List Char} :
    wordKind w = .identifier ↔ Keyword.ofUpper? (upperAscii w) = none := by
  rw [wordKind]
  split <;> simp_all

section Insertions

variable {sql : String} {insertions : List Insertion}

lemma aliasAt_ne_none_iff (hplaces : insertions.map Insertion.position =
    aliasPlaces (extract (tokenize sql))) {p : ℕ} :
    aliasAt insertions p ≠ none ↔ p ∈ aliasPlaces (extract (tokenize sql)) := by
  rw [Ne, aliasAt_eq_none_iff, not_not, hplaces]

/-- The aliases that are inserted stand where the references of the query want them. -/
lemma aliasesFor_aliasAt
    (hplaces : insertions.map Insertion.position = aliasPlaces (extract (tokenize sql))) :
    AliasesFor (aliasAt insertions) (tokenize sql) (extract (tokenize sql)) := by
  refine ⟨pairwise_stop_tokenize sql, fun t ht hword => ?_,
    fun t _ => (aliasAt_ne_none_iff hplaces).mp⟩
  obtain ⟨r, hr, hplace⟩ := List.mem_filterMap.mp ((aliasAt_ne_none_iff hplaces).mp hword)
  obtain ⟨t', ht', hnamed⟩ := exists_namedBy_of_mem_extract hr
  have hstop : t'.stop = t.stop := by
    have hplace' := hnamed.aliasPlace
    rw [hplace] at hplace'
    split_ifs at hplace'
    exact (Option.some.inj hplace').symm
  rw [← eq_of_stop_eq ht' ht hstop]
  exact hnamed.kind

/-- They are legible when none is a keyword and no list of references goes on past an `AS` after
one. -/
lemma legible_aliasAt_iff
    (hplaces : insertions.map Insertion.position = aliasPlaces (extract (tokenize sql))) :
    Legible (aliasAt insertions) (tokenize sql) ↔
      (∀ insertion ∈ insertions,
        Keyword.ofUpper? (upperAscii insertion.aliasName.toList) = none) ∧
      goesOnPastAs (aliasPlaces (extract (tokenize sql))) (tokenize sql) = false := by
  rw [goesOnPastAs_eq_false_iff]
  have hsublist := aliasPlaces_extract_sublist (tokenize sql)
  constructor
  · refine fun h => ⟨fun insertion hinsertion => ?_, fun t after hsuffix hplace => ?_⟩
    · rw [← hplaces] at hsublist
      obtain ⟨t, ht, hstop⟩ :=
        List.mem_map.mp (hsublist.mem (List.mem_map_of_mem hinsertion))
      obtain ⟨before, after, hsplit⟩ := List.append_of_mem ht
      have hword := aliasAt_of_mem ((pairwise_stop_tokenize sql).sublist hsublist) hinsertion
      rw [← hstop] at hword
      exact wordKind_eq_identifier_iff.mp (h t after ⟨before, hsplit.symm⟩ _ hword).1
    · obtain ⟨w, hw⟩ := Option.ne_none_iff_exists'.mp ((aliasAt_ne_none_iff hplaces).mpr hplace)
      exact (h t after hsuffix w hw).2
  · rintro ⟨hkeyword, hends⟩ t after hsuffix w hw
    obtain ⟨insertion, hinsertion, -, rfl⟩ := exists_of_aliasAt hw
    refine ⟨wordKind_eq_identifier_iff.mpr (hkeyword insertion hinsertion), ?_⟩
    exact hends t after hsuffix ((aliasAt_ne_none_iff hplaces).mp (by simp [hw]))

end Insertions

/-- A token of a query that is its own text stands for a lexeme that is. -/
lemma text_eq_value {sql : String} {a b : List Lexeme} {l : Lexeme}
    (hls : lexemes sql.toList = a ++ l :: b)
    (h : slice? sql.toList (byteLength (covered a)) (byteLength (covered a) + byteLength l.text) =
      some l.value) : l.text = l.value := by
  rw [toList_of_lexemes hls, slice?_append] at h
  exact Option.some.inj h

/-- The table name of every reference of a query stands in it as it is read, without backquotes. -/
def BareNames (sql : String) : Prop :=
  ∀ r ∈ extract (tokenize sql), ∃ t ∈ tokenize sql, t.stop = r.nameEnd ∧
    slice? sql.toList t.start t.stop = some r.table.toList

instance (sql : String) : Decidable (BareNames sql) :=
  inferInstanceAs (Decidable (∀ r ∈ extract (tokenize sql), ∃ t ∈ tokenize sql,
    t.stop = r.nameEnd ∧ slice? sql.toList t.start t.stop = some r.table.toList))

namespace BareNames

variable {sql : String} {taken final : List String} {insertions : List Insertion}
  {r : TableReference}

/-- A bare name is a word, and the lexeme that ends where it does is this word. -/
lemma lexeme {a b : List Lexeme} {l : Lexeme} (h : BareNames sql)
    (hr : r ∈ extract (tokenize sql)) (hls : lexemes sql.toList = a ++ l :: b)
    (hend : r.nameEnd = byteLength (covered a) + byteLength l.text) :
    l.kind = .identifier ∧ l.text = l.value ∧ r.table.toList = l.text ∧ IsWord l.text := by
  obtain ⟨t, ht, hstop, hslice⟩ := h r hr
  obtain ⟨t', ht', hnamed⟩ := exists_namedBy_of_mem_extract hr
  have hmem : l.placedAt (byteLength (covered a)) ∈ tokenize sql := by
    rw [tokenize, hls, placeLexemes_append, placeLexemes_cons, Nat.zero_add]
    simp
  -- the token that is bare and the one that names the reference are the lexeme that ends there
  obtain rfl := eq_of_stop_eq ht hmem (hstop.trans hend)
  obtain rfl := eq_of_stop_eq ht' hmem (hnamed.nameEnd.symm.trans hend)
  have htable : r.table.toList = l.value := by
    rw [hnamed.table]
    exact String.toList_ofList
  rw [htable] at hslice
  have hplain := text_eq_value hls hslice
  exact ⟨hnamed.kind, hplain, htable.trans hplain.symm,
    isWord_of_mem_lexemes (by rw [hls]; simp) hnamed.kind hplain⟩

lemma isWord (h : BareNames sql) (hr : r ∈ extract (tokenize sql)) : IsWord r.table.toList := by
  obtain ⟨t, ht, hnamed⟩ := exists_namedBy_of_mem_extract hr
  obtain ⟨before, after, hsplit⟩ := List.append_of_mem ht
  obtain ⟨a, l, b, hls, -, rfl, -⟩ := exists_lexeme_of_tokenize hsplit
  obtain ⟨-, -, htable, hword⟩ := h.lexeme hr hls hnamed.nameEnd
  rw [htable]
  exact hword

/-- The aliases are words written after words. -/
lemma isWritable_aliasAt (h : BareNames sql)
    (hfills : Fills .stops (extract (tokenize sql)) taken insertions final) :
    IsWritable (aliasAt insertions) 0 (lexemes sql.toList) := by
  refine isWritable_of_forall fun a l b hls w hw => ?_
  obtain ⟨insertion, hinsertion, hposition, rfl⟩ := exists_of_aliasAt hw
  obtain ⟨r, hr, hplace, taken', hfree⟩ := hfills.exists_of_mem hinsertion
  obtain ⟨t, -, hnamed⟩ := exists_namedBy_of_mem_extract hr
  have hend : r.nameEnd = byteLength (covered a) + byteLength l.text := by
    have hplace' := hnamed.aliasPlace
    rw [hplace] at hplace'
    split_ifs at hplace'
    rw [hnamed.nameEnd, ← Option.some.inj hplace', hposition, Nat.zero_add]
  obtain ⟨hkind, hplain, htable, hword⟩ := h.lexeme hr hls hend
  exact ⟨hkind, hplain, isWord_freeAlias? (htable ▸ hword) hfree⟩

/-- No alias opens a list of references. -/
lemma opensNothing_aliasAt (h : BareNames sql)
    (hfills : Fills .stops (extract (tokenize sql)) taken insertions final) :
    OpensNothing (aliasAt insertions) := by
  have hshort : ∀ p w k, aliasAt insertions p = some w →
      wordKind w.toList = .keyword k → k.spelling.toList.length ≤ 2 := by
    intro p w k hw hkind
    obtain ⟨insertion, hinsertion, -, rfl⟩ := exists_of_aliasAt hw
    obtain ⟨r, hr, -, taken', hfree⟩ := hfills.exists_of_mem hinsertion
    exact length_spelling_le_of_freeAlias? (h.isWord hr) hfree hkind
  refine fun p w hw => ⟨fun hkind => ?_, fun hkind => ?_⟩
  · exact absurd (hshort p w .FROM hw hkind) (by decide)
  · exact absurd (hshort p w .JOIN hw hkind) (by decide)

end BareNames

/-! ### The references of the text, read again -/

/-- Nothing is an alias for the references of a query. -/
lemma aliasesFor_none (sql : String) :
    AliasesFor (fun _ => none) (tokenize sql) (extract (tokenize sql)) where
  increasing := pairwise_stop_tokenize sql
  onIdentifiers _ _ h := (h rfl).elim
  atPlaces _ _ h := (h rfl).elim

/-- Wherever they stand, the references of a text are those of its tokens. -/
lemma extract_unplaced (sql : String) :
    extract ((tokenize sql).map Token.unplaced) =
      (extract (tokenize sql)).map (withWord fun _ => none) := by
  rw [← respell_none, extract_respell (aliasesFor_none sql) fun _ _ _ _ h => nomatch h]

/-- The references of a text with words at the places of aliases are those of the query with these
words as aliases, however they are spelled again. -/
lemma names_of_map_withWord {words : ℕ → Option String} {reread refs : List TableReference}
    (h : reread.map (withWord fun _ => none) = refs.map (withWord words)) :
    reread.map names = (refs.map (withWord words)).map names := by
  calc
    reread.map names = (reread.map (withWord fun _ => none)).map names := by
      rw [List.map_map]
      exact List.map_congr_left fun r _ => (names_withWord_none r).symm
    _ = (refs.map (withWord words)).map names := by rw [h]

/-- With a word at every place where an alias is wanted, every reference has an alias. -/
lemma isSome_aliasName_withWord {words : ℕ → Option String} {tokens : List Token}
    (h : ∀ p ∈ aliasPlaces (extract tokens), words p ≠ none) {r : TableReference}
    (hr : r ∈ extract tokens) : (r.withWord words).aliasName.isSome := by
  obtain ⟨t, -, hnamed⟩ := exists_namedBy_of_mem_extract hr
  have hplace := hnamed.aliasPlace
  rw [withWord, Option.isSome_or]
  cases halias : r.aliasName with
  | some a => rfl
  | none =>
      rw [halias] at hplace
      have hword := h t.stop (List.mem_filterMap.mpr ⟨r, hr, hplace⟩)
      rw [hplace]
      exact Option.isSome_iff_ne_none.mpr hword

/-- Where every reference has an alias, no alias is inserted. -/
lemma insertionsFor?_eq_some_nil {tokens : List Token}
    (h : ∀ r ∈ extract tokens, r.aliasName.isSome) (overflow : Overflow) (taken : List String) :
    insertionsFor? overflow (extract tokens) taken =
      some ([], writtenAliases (extract tokens) ++ taken) := by
  have hnone : ∀ r ∈ extract tokens, r.aliasPlace = none := fun r hr => by
    obtain ⟨t, -, hnamed⟩ := exists_namedBy_of_mem_extract hr
    rw [hnamed.aliasPlace, if_pos (h r hr)]
  rw [insertionsFor?, fillAliases?_eq_some_iff]
  exact .of_forall_eq_none hnone

/-- The references of the query with aliases are those of the query, in order, each with the alias
written for it or else the one generated. So none is without an alias, and no more aliases are
inserted. -/
structure ReadBack (sql : String) (insertions : List Insertion) : Prop where
  length : (extract (tokenize (applyInsertions sql insertions))).length =
    (extract (tokenize sql)).length
  names : (extract (tokenize (applyInsertions sql insertions))).map names =
    (withInsertions (extract (tokenize sql)) insertions).map names
  aliased : ∀ r ∈ extract (tokenize (applyInsertions sql insertions)), r.aliasName.isSome
  settled : ∀ overflow taken, (insertionsFor? overflow
    (extract (tokenize (applyInsertions sql insertions))) taken).map Prod.fst = some []

/-- Aliases that are words are read back if and only if they are legible where they stand. -/
lemma readBack_iff_of_fills {sql : String} (hbare : BareNames sql) {taken final : List String}
    {insertions : List Insertion}
    (hfills : Fills .stops (extract (tokenize sql)) taken insertions final) :
    ReadBack sql insertions ↔
      (∀ insertion ∈ insertions,
        Keyword.ofUpper? (upperAscii insertion.aliasName.toList) = none) ∧
      goesOnPastAs (aliasPlaces (extract (tokenize sql))) (tokenize sql) = false := by
  have hplaces := hfills.map_position
  have hsublist := aliasPlaces_extract_sublist (tokenize sql)
  rw [← hplaces] at hsublist
  have htokens := tokenize_applyInsertions hsublist (hbare.isWritable_aliasAt hfills)
  have haliases := aliasesFor_aliasAt hplaces
  rw [← legible_aliasAt_iff hplaces]
  -- what is read from the text is what is read from the tokens among which the words stand
  have hreread : (extract (tokenize (applyInsertions sql insertions))).map
      (withWord fun _ => none) = extract (respell (aliasAt insertions) (tokenize sql)) := by
    rw [← extract_unplaced, htokens]
  constructor
  · intro h
    refine legible_of_length_eq (hbare.opensNothing_aliasAt hfills) haliases (fun r hr => ?_) ?_
    · rw [← hreread] at hr
      obtain ⟨r', hr', rfl⟩ := List.mem_map.mp hr
      have halias := h.aliased r' hr'
      simpa [withWord] using halias
    · rw [← hreread, List.length_map, h.length]
  · intro hlegible
    rw [extract_respell haliases hlegible] at hreread
    have haliased : ∀ r ∈ extract (tokenize (applyInsertions sql insertions)),
        r.aliasName.isSome := by
      intro r hr
      have hmem := List.mem_map_of_mem (f := withWord fun _ => none) hr
      rw [hreread] at hmem
      obtain ⟨r', hr', heq⟩ := List.mem_map.mp hmem
      have halias : (r.withWord fun _ => none).aliasName = r.aliasName := by simp [withWord]
      rw [← halias, ← heq]
      exact isSome_aliasName_withWord (fun p => (aliasAt_ne_none_iff hplaces).mpr) hr'
    refine ⟨?_, ?_, haliased, fun overflow taken' => ?_⟩
    · simpa using congrArg List.length hreread
    · have hincreasing := (pairwise_stop_tokenize sql).sublist hsublist
      rw [names_of_map_withWord hreread]
      exact (names_withInsertions hfills fun i hi => aliasAt_of_mem hincreasing hi).symm
    · rw [insertionsFor?_eq_some_nil haliased, Option.map_some]

/-- **Aliases are read back.** Where every table is named by a bare word, aliases are found if the
names that are written or taken and the references are no more than 2^31. Wherever they are found
before the counter would be stopped, however the program is built, the aliases that are written into
a query are read back if and only if none of them is a keyword and no reference without an alias has
an `AS` after it past which its list goes on. -/
theorem readBack_iff {sql : String} (hbare : BareNames sql) (taken : List String) :
    ((writtenAliases (extract (tokenize sql)) ++ taken).toFinset.card +
        (extract (tokenize sql)).length ≤ 2 ^ 31 →
      (insertionsFor? .stops (extract (tokenize sql)) taken).isSome) ∧
    ∀ insertions final,
      insertionsFor? .stops (extract (tokenize sql)) taken = some (insertions, final) →
        (∀ overflow,
          insertionsFor? overflow (extract (tokenize sql)) taken = some (insertions, final)) ∧
        (ReadBack sql insertions ↔
          (∀ insertion ∈ insertions,
            Keyword.ofUpper? (upperAscii insertion.aliasName.toList) = none) ∧
          goesOnPastAs (aliasPlaces (extract (tokenize sql))) (tokenize sql) = false) := by
  refine ⟨isSome_insertionsFor? .stops, fun insertions final h => ?_⟩
  have hfills := fillAliases?_eq_some_iff.mp h
  exact ⟨fun overflow => fillAliases?_eq_some_iff.mpr hfills.of_stops,
    readBack_iff_of_fills hbare hfills⟩

/-- Two tables whose second characters are shared with an alias that is written after them, and a last
reference with an `AS` after which nothing comes. -/
theorem readBack_iff_products :
    let sql := "SELECT * FROM products JOIN prices JOIN pr_archive p, users AS"
    let insertions : List Insertion :=
      [⟨22, "products", "pr"⟩, ⟨34, "prices", "p1"⟩, ⟨59, "users", "u"⟩]
    BareNames sql ∧
      insertionsFor? .stops (extract (tokenize sql)) [] =
        some (insertions, ["u", "p1", "pr", "p"]) ∧
      ReadBack sql insertions := by
  intro sql insertions
  have hbare : BareNames sql := by decide +kernel
  have hfound : insertionsFor? .stops (extract (tokenize sql)) [] =
      some (insertions, ["u", "p1", "pr", "p"]) := by decide +kernel
  exact ⟨hbare, hfound, ((readBack_iff hbare []).2 _ _ hfound).2.mpr (by decide +kernel)⟩

/-- Not all aliases are read back: an alias may be a keyword, and where a reference has an `AS`
after it the one after the next comma is lost. -/
theorem not_readBack :
    (BareNames "SELECT * FROM accounts a JOIN assets" ∧
      (∀ overflow, (insertionsFor? overflow
        (extract (tokenize "SELECT * FROM accounts a JOIN assets")) []).map Prod.fst =
          some [⟨36, "assets", "as"⟩]) ∧
      ¬ ReadBack "SELECT * FROM accounts a JOIN assets" [⟨36, "assets", "as"⟩]) ∧
    BareNames "SELECT * FROM t AS, u x" ∧
      (∀ overflow, (insertionsFor? overflow
        (extract (tokenize "SELECT * FROM t AS, u x")) []).map Prod.fst = some [⟨15, "t", "t"⟩]) ∧
      ¬ ReadBack "SELECT * FROM t AS, u x" [⟨15, "t", "t"⟩] := by
  refine ⟨⟨by decide +kernel, ?_, fun h => ?_⟩, by decide +kernel, ?_, fun h => ?_⟩
  · rintro (_ | _) <;> decide +kernel
  · have haliased := h.aliased
    revert haliased
    decide +kernel
  · rintro (_ | _) <;> decide +kernel
  · have hlength := h.length
    revert hlength
    decide +kernel

end SqlCompletion
