import SqlCompletion.Proofs.TableReference.Respelling

/-!
What is lost where aliases among the tokens of a query cannot be read.

* `TableReference.length_extract_le_following`: no more references are read where a list is not gone
  on with than where it is;
* `TableReference.read?_respell_of_keyword`: a keyword is not read as an alias;
* `TableReference.legible_of_length_eq`: where every reference that is read has an alias, and as
  many are read as before, all aliases are identifiers and no list goes on past an `AS` after one.
-/

namespace SqlCompletion

namespace TableReference

/-! ### Lists that are not gone on with -/

lemma length_extract_le_upcoming (tokens : List Token) :
    (extract tokens).length ≤ (upcoming tokens).length := by
  refine (reading_induction (E := fun _ => True)
    (U := fun tokens => (extract tokens).length ≤ (upcoming tokens).length)
    trivial (fun _ _ _ _ => trivial) (fun _ _ _ _ => trivial) ?none ?reads tokens).2
  case none =>
      intro tokens hread _
      rw [upcoming_of_none hread]
  case reads =>
      intro tokens r rest hread _ ihmore
      rw [upcoming_of_some hread, List.length_cons, extract_of_read? hread, following]
      cases hcomma : skipComma? rest with
      | none => exact Nat.le_succ _
      | some more =>
          rw [extract_of_skipComma? hcomma]
          exact (ihmore more hcomma).trans (Nat.le_succ _)

/-- No more references are read where a list is not gone on with than where it is. -/
lemma length_extract_le_following (tokens : List Token) :
    (extract tokens).length ≤ (following tokens).length := by
  rw [following]
  cases hcomma : skipComma? tokens with
  | none => exact le_rfl
  | some more =>
      rw [extract_of_skipComma? hcomma]
      exact length_extract_le_upcoming more

/-- Where as many are read, no reference comes after the next comma. -/
lemma bind_eq_none_of_length_eq {tokens : List Token}
    (h : (extract tokens).length = (following tokens).length) :
    (skipComma? tokens).bind read? = none := by
  by_contra hread
  obtain ⟨⟨r, rest⟩, hread⟩ := Option.ne_none_iff_exists'.mp hread
  obtain ⟨more, hcomma, hread⟩ := Option.bind_eq_some_iff.mp hread
  have hle := length_extract_le_following rest
  rw [extract_of_skipComma? hcomma, extract_of_read? hread, following, hcomma] at h
  simp only [upcoming_of_some hread, List.length_cons] at h
  omega

/-! ### Words that cannot be read -/

variable {words : ℕ → Option String} {tokens rest after : List Token} {t : Token}

/-- A keyword after the name of a reference is not read as its alias. -/
lemma read?_respell_of_keyword {database : Option Token} {w : String} {k : Keyword}
    (h : AliasesFor words tokens (upcoming tokens))
    (hname : readName? tokens = some ((database, t), after)) (hword : words t.stop = some w)
    (hkeyword : wordKind w.toList = .keyword k) :
    ∃ r rest, read? (respell words tokens) = some (r, rest) ∧ r.aliasName = none := by
  have hread := readName?_respell_of_some h hname
  have hafter : readIdentifier? after = none := by
    have hnone := readAlias_of_word h hname hword
    rw [readAlias] at hnone
    split at hnone
    · cases hnone
    · rename_i hskipAs
      rw [skipAs] at hskipAs
      split at hskipAs
      · rename_i t' more hskip
        split_ifs at hskipAs with has
        · rw [readIdentifier?, hskip]
          refine if_neg fun hkind => ?_
          simp [Token.isKeyword, hkind] at has
        · exact hskipAs
      · exact hskipAs
  have hspaced :
      readIdentifier? (skipAs (spacedTokens (some w) ++ respell words after)) = none := by
    rw [skipAs, skipTrivia_spaced, hkeyword]
    simp only
    split_ifs
    · have honIdentifiers := (h.after_name hname).onIdentifiers
      rw [readIdentifier?_respell honIdentifiers, hafter]
      rfl
    · rw [readIdentifier?, skipTrivia_spaced, hkeyword]
      rfl
  refine ⟨_, _, read?_of_readName? hread, ?_⟩
  rw [hword, readAlias, hspaced]
  rfl

/-- No word among the tokens opens a list of references. -/
def OpensNothing (words : ℕ → Option String) : Prop :=
  ∀ p w, words p = some w → wordKind w.toList ≠ .keyword .FROM ∧ wordKind w.toList ≠ .keyword .JOIN

lemma OpensNothing.extract_spaced (hopens : OpensNothing words) {p : ℕ} {w : String}
    (hword : words p = some w) (rest : List Token) :
    extract (spacedTokens (some w) ++ rest) = extract rest := by
  obtain ⟨hfrom, hjoin⟩ := hopens p w hword
  exact extract_of_skipTrivia (skipTrivia_spaced w rest) hfrom hjoin

/-- Where a list is not gone on with, the words after its names are passed over. -/
lemma OpensNothing.extract_respell_of_name (hopens : OpensNothing words) {database : Option Token}
    (h : AliasesFor words tokens (upcoming tokens))
    (hname : readName? tokens = some ((database, t), after)) :
    extract (respell words tokens) = extract (respell words (readAlias after).2) := by
  cases hword : words t.stop with
  | none => exact extract_of_read? (read?_respell_of_none h hname hword)
  | some w =>
      have hafter := h.after_name hname
      calc
        extract (respell words tokens) =
            extract (spacedTokens (some w) ++ respell words after) := by
          rw [extract_of_readName? (readName?_respell_of_some h hname), hword]
        _ = extract (respell words after) := hopens.extract_spaced hword _
        _ = extract (skipAs (respell words after)) := (extract_skipAs _).symm
        _ = extract (respell words (readAlias after).2) := by
          rw [skipAs_respell hafter.onIdentifiers, readAlias_of_word h hname hword]

/-- Of two ways the tokens may end, the one whose first token is in the other is the shorter. -/
lemma suffix_of_stop_mem (hincreasing : (tokens.map Token.stop).Pairwise (· < ·))
    (hsuffix : t :: after <:+ tokens) (hrest : rest <:+ tokens)
    (hmem : t.stop ∈ rest.map Token.stop) : t :: after <:+ rest := by
  rcases List.suffix_or_suffix_of_suffix hsuffix hrest with h | h
  · exact h
  · rcases List.suffix_cons_iff.mp h with rfl | h
    · exact List.suffix_refl _
    · have hlater := hincreasing.sublist (hsuffix.sublist.map Token.stop)
      have hlt := (List.pairwise_cons.mp hlater).1 t.stop ((h.sublist.map Token.stop).mem hmem)
      exact (lt_irrefl _ hlt).elim

/-- Words are legible where those among the tokens are that come with all the places. -/
lemma legible_of_rest {refs : List TableReference} (h : AliasesFor words tokens refs)
    (hrest : rest <:+ tokens) (hplaces : (aliasPlaces refs).Sublist (rest.map Token.stop))
    (hlegible : Legible words rest) : Legible words tokens := by
  intro t after hsuffix w hword
  have hplace := h.atPlaces t (hsuffix.mem (List.mem_cons_self ..)) (by simp [hword])
  have hsuffix' := suffix_of_stop_mem h.increasing hsuffix hrest (hplaces.mem hplace)
  exact hlegible t after hsuffix' w hword

/-- Words are legible where the one after the name of a reference and those after the reference
are. -/
lemma legible_of_name {database : Option Token} (h : AliasesFor words tokens (upcoming tokens))
    (hname : readName? tokens = some ((database, t), after))
    (ht : ∀ w, words t.stop = some w →
      wordKind w.toList = .identifier ∧ continuesPastAs after = false)
    (hlegible : Legible words (readAlias after).2) : Legible words tokens := by
  have hread := read?_of_readName? hname
  have hsuffix := (suffix_of_readName? hname).1
  intro t' after' hsuffix' w hword
  have hplace := h.atPlaces t' (hsuffix'.mem (List.mem_cons_self ..)) (by simp [hword])
  rw [upcoming_of_some hread, aliasPlaces_cons, List.mem_append] at hplace
  rcases hplace with hplace | hplace
  · have hstop : t'.stop = t.stop :=
      List.mem_singleton.mp ((aliasPlace_sublist_of_read? hread).mem hplace)
    have hle := suffix_of_stop_mem h.increasing hsuffix' hsuffix (by simp [hstop])
    have hge := suffix_of_stop_mem h.increasing hsuffix hsuffix' (by simp [hstop])
    obtain ⟨rfl, rfl⟩ := List.cons.inj (hle.eq_of_length (le_antisymm hle.length_le hge.length_le))
    exact ht w hword
  · have hrest : (readAlias after).2 <:+ tokens :=
      (readAlias_suffix after).trans (suffix_of_cons_suffix hsuffix)
    have hmem := (aliasPlaces_following_sublist (readAlias after).2).mem hplace
    exact hlegible t' after' (suffix_of_stop_mem h.increasing hsuffix' hrest hmem) w hword

/-! ### Nothing lost -/

/-- Where every reference that is read again has an alias, no more are read than before, and the
words are legible if no fewer are. -/
def Kept (words : ℕ → Option String) (read : List Token → List TableReference)
    (tokens : List Token) : Prop :=
  AliasesFor words tokens (read tokens) →
    (∀ r ∈ read (respell words tokens), r.aliasName.isSome) →
      (read (respell words tokens)).length ≤ (read tokens).length ∧
        ((read (respell words tokens)).length = (read tokens).length → Legible words tokens)

/-- The same where words are written for a list of references that is not gone on with: no more
references are read than before. -/
def Skipped (words : ℕ → Option String) (read : List Token → List TableReference)
    (tokens : List Token) : Prop :=
  AliasesFor words tokens (read tokens) →
    (∀ r ∈ extract (respell words tokens), r.aliasName.isSome) →
      (extract (respell words tokens)).length ≤ (extract tokens).length

lemma kept_following (hextract : Kept words extract rest)
    (hupcoming : ∀ more, skipComma? rest = some more → Kept words upcoming more) :
    Kept words following rest := by
  intro h hsome
  rw [following_respell h.onIdentifiers] at hsome ⊢
  rw [following] at h ⊢
  cases hcomma : skipComma? rest with
  | none =>
      simp only [hcomma] at h hsome ⊢
      exact hextract h hsome
  | some more =>
      simp only [hcomma] at h hsome ⊢
      have hsuffix := suffix_of_skipComma? hcomma
      obtain ⟨hle, hlegible⟩ := hupcoming more hcomma (h.rest hsuffix) hsome
      exact ⟨hle, fun heq =>
        legible_of_rest h hsuffix (aliasPlaces_upcoming_sublist more) (hlegible heq)⟩

lemma skipped_following (hextract : Kept words extract rest)
    (hupcoming : ∀ more, skipComma? rest = some more → Skipped words upcoming more) :
    Skipped words following rest := by
  intro h hsome
  have hcomma' := skipComma?_respell h.onIdentifiers
  rw [following] at h
  cases hcomma : skipComma? rest with
  | none =>
      simp only [hcomma] at h
      exact (hextract h hsome).1
  | some more =>
      rw [hcomma, Option.map_some] at hcomma'
      simp only [hcomma] at h
      rw [extract_of_skipComma? hcomma'] at hsome ⊢
      rw [extract_of_skipComma? hcomma]
      exact hupcoming more hcomma (h.rest (suffix_of_skipComma? hcomma)) hsome

/-- After a name with a word, a reference is lost if the list goes on past an `AS`. -/
lemma kept_after (hextract : Kept words extract (skipAs after))
    (hfollowing : Kept words following (skipAs after))
    (hskipped : Skipped words following (skipAs after))
    (h : AliasesFor words after (following (skipAs after)))
    (hsome : ∀ r ∈ following (respell words after), r.aliasName.isSome) :
    (following (respell words after)).length ≤ (following (skipAs after)).length ∧
      ((following (respell words after)).length = (following (skipAs after)).length →
        continuesPastAs after = false ∧ Legible words (skipAs after)) := by
  have hlater := h.rest (skipAs_suffix after)
  rw [continuesPastAs]
  rw [skipAs] at hextract hfollowing hskipped hlater ⊢
  cases hskip : skipTrivia after with
  | nil =>
      simp only [hskip] at hfollowing hlater ⊢
      obtain ⟨hle, hlegible⟩ := hfollowing hlater hsome
      exact ⟨hle, fun heq => ⟨trivial, hlegible heq⟩⟩
  | cons as more =>
      simp only [hskip] at hextract hfollowing hskipped hlater ⊢
      split_ifs at hextract hfollowing hskipped hlater ⊢ with has
      · rw [following_respell_of_as h.onIdentifiers hskip has] at hsome ⊢
        have hle := hskipped hlater hsome
        have hle' := length_extract_le_following more
        refine ⟨hle.trans hle', fun heq => ?_⟩
        have hnone := bind_eq_none_of_length_eq (le_antisymm hle' (heq ▸ hle))
        rw [following_of_bind_eq_none hnone] at hlater heq
        exact ⟨by simp [hnone], (hextract hlater hsome).2 heq⟩
      · obtain ⟨hle, hlegible⟩ := hfollowing hlater hsome
        exact ⟨hle, fun heq => ⟨by simp [has], hlegible heq⟩⟩

/-- A reference that is read again with an alias, and what follows it. -/
lemma kept_upcoming_of_name {database : Option Token}
    (hname : readName? tokens = some ((database, t), after))
    (hextract : Kept words extract (readAlias after).2)
    (hfollowing : Kept words following (readAlias after).2)
    (hskipped : Skipped words following (readAlias after).2) : Kept words upcoming tokens := by
  intro h hsome
  have hread := read?_of_readName? hname
  have hafter := h.after_name hname
  cases hword : words t.stop with
  | none =>
      rw [upcoming_of_some (read?_respell_of_none h hname hword)] at hsome ⊢
      obtain ⟨hle, hlegible⟩ := hfollowing (hafter.rest (readAlias_suffix after))
        fun r hr => hsome r (List.mem_cons_of_mem _ hr)
      rw [upcoming_of_some hread, List.length_cons, List.length_cons]
      refine ⟨Nat.succ_le_succ hle, fun heq => ?_⟩
      refine legible_of_name h hname (fun w hw => ?_) (hlegible (Nat.succ.inj heq))
      rw [hword] at hw
      cases hw
  | some w =>
      rcases wordKind_cases w.toList with hidentifier | ⟨k, hkeyword⟩
      · rw [upcoming_of_some (read?_respell_of_some h hname hword hidentifier)] at hsome ⊢
        have hrest := readAlias_of_word h hname hword
        rw [hrest] at hextract hfollowing hskipped hafter
        obtain ⟨hle, hlegible⟩ := kept_after hextract hfollowing hskipped hafter
          fun r hr => hsome r (List.mem_cons_of_mem _ hr)
        rw [upcoming_of_some hread, List.length_cons, List.length_cons, hrest]
        refine ⟨Nat.succ_le_succ hle, fun heq => ?_⟩
        obtain ⟨hends, hlegible⟩ := hlegible (Nat.succ.inj heq)
        refine legible_of_name h hname (fun w' hw' => ?_) (by rwa [hrest])
        obtain rfl : w = w' := Option.some.inj (hword.symm.trans hw')
        exact ⟨hidentifier, hends⟩
      · -- a keyword is no alias, but every reference that is read has one
        obtain ⟨r, rest, hreadKeyword, hnone⟩ := read?_respell_of_keyword h hname hword hkeyword
        have hr := hsome r (by simp [upcoming_of_some hreadKeyword])
        rw [hnone] at hr
        cases hr

lemma kept_extract_and_upcoming (hopens : OpensNothing words) (tokens : List Token) :
    Kept words extract tokens ∧ Kept words upcoming tokens ∧ Skipped words upcoming tokens := by
  refine reading_induction (E := Kept words extract)
    (U := fun tokens => Kept words upcoming tokens ∧ Skipped words upcoming tokens)
    ?nil ?opens ?passes ?none ?reads tokens
  case nil =>
      intro _ _
      refine ⟨le_rfl, fun _ t after hsuffix => ?_⟩
      simp at hsuffix
  case opens =>
      rintro t rest ht ⟨ih, -⟩ h hsome
      rw [extract_cons, if_pos ht] at h ⊢
      have hplaces := aliasPlaces_upcoming_sublist rest
      rw [extract_respell_cons (h.eq_none (List.suffix_refl _) hplaces), if_pos ht] at hsome ⊢
      obtain ⟨hle, hlegible⟩ := ih (h.rest (List.suffix_cons t rest)) hsome
      exact ⟨hle, fun heq => legible_of_rest h (List.suffix_cons t rest) hplaces (hlegible heq)⟩
  case passes =>
      intro t rest ht ih h hsome
      rw [extract_cons, ht] at h ⊢
      have hplaces := aliasPlaces_extract_sublist rest
      rw [extract_respell_cons (h.eq_none (List.suffix_refl _) hplaces), ht] at hsome ⊢
      obtain ⟨hle, hlegible⟩ := ih (h.rest (List.suffix_cons t rest)) hsome
      exact ⟨hle, fun heq => legible_of_rest h (List.suffix_cons t rest) hplaces (hlegible heq)⟩
  case none =>
      intro tokens hread ih
      refine ⟨fun h hsome => ?_, fun h hsome => ?_⟩
      · rw [upcoming_of_none (read?_respell_of_eq_none h hread)] at hsome ⊢
        rw [upcoming_of_none hread] at h ⊢
        exact ih h hsome
      · rw [upcoming_of_none hread] at h
        exact (ih h hsome).1
  case reads =>
      intro tokens r rest hread ih ihmore
      obtain ⟨database, t, after, hname, rfl, rfl⟩ := read?_eq_some_iff.mp hread
      have hfollowing := kept_following ih fun more hmore => (ihmore more hmore).1
      have hskipped := skipped_following ih fun more hmore => (ihmore more hmore).2
      refine ⟨kept_upcoming_of_name hname ih hfollowing hskipped, fun h hsome => ?_⟩
      rw [hopens.extract_respell_of_name h hname] at hsome ⊢
      rw [extract_of_read? hread]
      exact hskipped ((h.after_name hname).rest (readAlias_suffix after)) hsome

/-- Where every reference that is read again has an alias, and no fewer are read than before, the
words are legible. -/
lemma legible_of_length_eq (hopens : OpensNothing words)
    (h : AliasesFor words tokens (extract tokens))
    (hsome : ∀ r ∈ extract (respell words tokens), r.aliasName.isSome)
    (hlength : (extract (respell words tokens)).length = (extract tokens).length) :
    Legible words tokens :=
  ((kept_extract_and_upcoming hopens tokens).1 h hsome).2 hlength

end TableReference

end SqlCompletion
