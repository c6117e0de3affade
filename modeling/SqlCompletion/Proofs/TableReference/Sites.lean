import SqlCompletion.Proofs.Alias.Generation
import SqlCompletion.Proofs.Alias.Interleaving
import SqlCompletion.Proofs.TableReference.Trivia
import SqlCompletion.Proofs.Token.Tiling

/-!
Where the references of a query stand in its text.

* `TableReference.FollowsDatabase`: a name comes after its database and a dot;
* `TableReference.exists_of_read?_eq_some`: the tokens of one reference, its name and then its
  alias;
* `TableReference.ReadInOrder.exists_of_append`: one reference among those that are read in order;
* `TableReference.StandsIn`: where a reference stands in the text of a query, with respect to those
  after it;
* `TableReference.standsIn_extract`: the references of a query stand one after another, and an alias
  may be written at each place that they give.
-/

namespace SqlCompletion

/-- Only trivia stands before the next token that a reader looks at. -/
lemma exists_gap_of_skipTrivia {tokens rest : List Token} {t : Token}
    (h : skipTrivia tokens = t :: rest) :
    ∃ gap, tokens = gap ++ t :: rest ∧ significant gap = [] := by
  refine ⟨tokens.takeWhile Token.isTrivia, ?_, ?_⟩
  · rw [← h, skipTrivia, List.takeWhile_append_dropWhile]
  · refine List.filter_eq_nil_iff.mpr fun t ht => ?_
    simp [List.mem_takeWhile_imp ht]

namespace TableReference

/-! ### The tokens of one reference -/

/-- The tokens before a name end with its database and a dot, if it has a database. Blanks and
comments are left out. -/
def FollowsDatabase (r : TableReference) (before : List Token) : Prop :=
  ∀ d ∈ r.database, ∃ front first dot, significant before = front ++ [first, dot] ∧
    first.kind = .identifier ∧ first.value = d ∧ dot.kind = .dot

lemma FollowsDatabase.append {r : TableReference} {before : List Token}
    (h : r.FollowsDatabase before) (earlier : List Token) :
    r.FollowsDatabase (earlier ++ before) := by
  intro d hd
  obtain ⟨front, first, dot, hbefore, hfirst⟩ := h d hd
  refine ⟨significant earlier ++ front, first, dot, ?_, hfirst⟩
  rw [significant_append, hbefore, List.append_assoc]

/-- A name, and what stands before it. -/
lemma exists_of_readName? {tokens after : List Token} {database : Option Token} {t : Token}
    (h : readName? tokens = some ((database, t), after)) :
    ∃ before, tokens = before ++ t :: after ∧
      ∀ first ∈ database, first.kind = .identifier ∧
        ∃ dot, dot.kind = .dot ∧ significant before = [first, dot] := by
  rw [readName?] at h
  split at h
  · cases h
  rename_i first rest hfirst
  obtain ⟨hskip, hkind⟩ := readIdentifier?_eq_some_iff.mp hfirst
  obtain ⟨gap, rfl, hgap⟩ := exists_gap_of_skipTrivia hskip
  split at h
  · cases h
    exact ⟨gap, rfl, by simp⟩
  rename_i dot more hdot
  split_ifs at h with hdotKind
  · split at h
    · cases h
    rename_i second rest' hsecond
    cases h
    obtain ⟨gap', rfl, hgap'⟩ := exists_gap_of_skipTrivia hdot
    obtain ⟨gap'', rfl, hgap''⟩ :=
      exists_gap_of_skipTrivia (readIdentifier?_eq_some_iff.mp hsecond).1
    have hbefore : significant (gap ++ first :: (gap' ++ dot :: gap'')) = [first, dot] := by
      have hfirst : first.isTrivia = false := by simp [Token.isTrivia, TokenKind.isTrivia, hkind]
      have hdot : dot.isTrivia = false := by simp [Token.isTrivia, TokenKind.isTrivia, hdotKind]
      rw [significant_append, hgap, significant_cons hfirst, significant_append, hgap',
        significant_cons hdot, hgap'']
      rfl
    refine ⟨gap ++ first :: (gap' ++ dot :: gap''), by simp, fun d hd => ?_⟩
    obtain rfl := Option.some.inj hd
    exact ⟨hkind, dot, hdotKind, hbefore⟩
  · cases h
    exact ⟨gap, rfl, by simp⟩

/-- An alias is the last token that is read of a reference. -/
lemma exists_of_readAlias {tokens : List Token} {a : String} (h : a ∈ (readAlias tokens).1) :
    ∃ between u, tokens = between ++ u :: (readAlias tokens).2 ∧ u.kind = .identifier ∧
      u.value = a := by
  rw [readAlias] at h ⊢
  split at h
  · rename_i u rest hread
    obtain ⟨between, hbetween⟩ := (suffix_of_readIdentifier? hread).trans (skipAs_suffix tokens)
    exact ⟨between, u, hbetween.symm, (readIdentifier?_eq_some_iff.mp hread).2, Option.some.inj h⟩
  · cases h

/-- The tokens of one reference: its name, and then its alias, if one is written. -/
lemma exists_of_read?_eq_some {tokens rest : List Token} {r : TableReference}
    (h : read? tokens = some (r, rest)) :
    ∃ before t after, tokens = before ++ t :: after ∧ r.NamedBy t ∧ r.FollowsDatabase before ∧
      ∀ a ∈ r.aliasName, ∃ between u, after = between ++ u :: rest ∧ u.kind = .identifier ∧
        u.value = a := by
  obtain ⟨database, t, after, hname, rfl, rfl⟩ := read?_eq_some_iff.mp h
  obtain ⟨before, hsplit, hdatabase⟩ := exists_of_readName? hname
  refine ⟨before, t, after, hsplit, ⟨(suffix_of_readName? hname).2, rfl, rfl, rfl⟩, ?_,
    fun a => exists_of_readAlias⟩
  intro d hd
  obtain ⟨first, hfirst, rfl⟩ := Option.map_eq_some_iff.mp hd
  obtain ⟨hkind, dot, hdot, hbefore⟩ := hdatabase first hfirst
  exact ⟨[], first, dot, hbefore, hkind, rfl, hdot⟩

/-- One reference among those that are read in order, and those that are read after it. -/
lemma ReadInOrder.exists_of_append {tokens : List Token} {earlier later : List TableReference}
    {r : TableReference} (h : ReadInOrder tokens (earlier ++ r :: later)) :
    ∃ start rest, start <:+ tokens ∧ read? start = some (r, rest) ∧ ReadInOrder rest later := by
  induction earlier generalizing tokens with
  | nil =>
      cases h with
      | cons hstart hread hlater => exact ⟨_, _, hstart, hread, hlater⟩
  | cons first earlier ih =>
      cases h with
      | cons hstart hread hrefs =>
          obtain ⟨start, rest, hsuffix, hr⟩ := ih hrefs
          exact ⟨start, rest, hsuffix.trans ((suffix_of_read? hread).trans hstart), hr⟩

/-! ### The text of a query -/

/-- Where a reference stands in the text of a query, and where the ones after it do. -/
structure StandsIn (sql : String) (r : TableReference) (later : List TableReference) : Prop where
  /-- Its name ends with an identifier, before which its database stands. -/
  name : ∃ before t after, tokenize sql = before ++ t :: after ∧ t.kind = .identifier ∧
    t.value = r.table ∧ t.stop = r.nameEnd ∧ r.FollowsDatabase before
  boundary : Text.IsBoundary sql.toList r.nameEnd
  /-- An alias may be written after the name unless there is one. -/
  aliasPlace : r.aliasPlace = if r.aliasName = none then some r.nameEnd else none
  /-- An alias stands after the name and before the names of the references to come. -/
  aliasName : ∀ a ∈ r.aliasName, ∃ u ∈ tokenize sql, u.kind = .identifier ∧ u.value = a ∧
    r.nameEnd ≤ u.start ∧ ∀ next ∈ later, u.stop < next.nameEnd

/-- Tokens of a query come one after another. -/
lemma stop_le_start {sql : String} {before between after : List Token} {t t' : Token}
    (h : tokenize sql = before ++ t :: (between ++ t' :: after)) : t.stop ≤ t'.start := by
  have hpairwise : (tokenize sql).Pairwise fun t t' => t.stop ≤ t'.start :=
    pairwise_placeLexemes 0 _
  rw [h, List.pairwise_append, List.pairwise_cons] at hpairwise
  exact hpairwise.2.1.1 t' (by simp)

lemma standsIn_of_readInOrder {sql : String} {earlier later : List TableReference}
    {r : TableReference} (h : ReadInOrder (tokenize sql) (earlier ++ r :: later)) :
    StandsIn sql r later := by
  obtain ⟨start, rest, ⟨front, hfront⟩, hread, hlater⟩ := h.exists_of_append
  obtain ⟨before, t, after, rfl, hnamed, hdatabase, halias⟩ := exists_of_read?_eq_some hread
  have htokens : tokenize sql = (front ++ before) ++ t :: after := by
    rw [← hfront, List.append_assoc]
  refine ⟨⟨front ++ before, t, after, htokens, hnamed.kind, hnamed.table.symm,
    hnamed.nameEnd.symm, hdatabase.append front⟩, ?_, ?_, fun a ha => ?_⟩
  · rw [hnamed.nameEnd]
    exact isBoundary_stop htokens
  · rw [hnamed.aliasPlace, hnamed.nameEnd]
    cases r.aliasName <;> rfl
  · obtain ⟨between, u, rfl, hkind, hvalue⟩ := halias a ha
    refine ⟨u, by simp [htokens], hkind, hvalue, ?_, fun next hnext => ?_⟩
    · rw [hnamed.nameEnd]
      exact stop_le_start htokens
    · obtain ⟨t', ht', hnamed'⟩ := hlater.exists_namedBy hnext
      obtain ⟨more, after, rfl⟩ := List.append_of_mem ht'
      have horder : u.stop ≤ t'.start := by
        have hsplit : tokenize sql =
            (front ++ before ++ t :: between) ++ u :: (more ++ t' :: after) := by
          rw [htokens, List.append_assoc, List.append_assoc, List.append_assoc, List.cons_append]
        exact stop_le_start hsplit
      have hmem : t' ∈ tokenize sql := by simp [htokens]
      rw [hnamed'.nameEnd]
      exact horder.trans_lt (start_lt_stop hmem)

/-- **Where aliases may go.** The names of the references of a query end one after another. Each
name is an identifier that stands in the query after its database and a dot, if it has a database,
and ends between two characters; there an alias may be appended exactly where none is written, and
one that is written is an identifier after the name and before the names of the references to come.
So no alias that is generated for the references of the query is passed over when all are written
into it. -/
theorem standsIn_extract (sql : String) :
    ((extract (tokenize sql)).map nameEnd).Pairwise (· < ·) ∧
      (∀ earlier r later, extract (tokenize sql) = earlier ++ r :: later → StandsIn sql r later) ∧
      ∀ overflow taken insertions final,
        insertionsFor? overflow (extract (tokenize sql)) taken = some (insertions, final) →
          AllWritten sql insertions := by
  have hread := readInOrder_extract (tokenize sql)
  have hstands : ∀ earlier r later, extract (tokenize sql) = earlier ++ r :: later →
      StandsIn sql r later := by
    intro earlier r later hsplit
    exact standsIn_of_readInOrder (hsplit ▸ hread)
  refine ⟨(pairwise_stop_tokenize sql).sublist hread.nameEnds_sublist, hstands,
    fun overflow taken insertions final h => ?_⟩
  refine allWritten_iff.mpr fun insertion hinsertion => ?_
  obtain ⟨r, hr, hplace, -⟩ := (fillAliases?_eq_some_iff.mp h).exists_of_mem hinsertion
  obtain ⟨earlier, later, hsplit⟩ := List.append_of_mem hr
  have hr := hstands earlier r later hsplit
  rw [hr.aliasPlace] at hplace
  split_ifs at hplace
  rw [← Option.some.inj hplace]
  exact hr.boundary

end TableReference

end SqlCompletion
