import SqlCompletion.Proofs.TableReference.Places
import SqlCompletion.Proofs.Token.Rules

/-!
References read from tokens among which aliases were written.

* `respell`: the tokens of a query with words written after those that end at given places. Where
  the tokens themselves stand is forgotten;
* `AliasesFor`: the words stand where references want an alias, and nowhere else;
* `Legible`: none of them is a keyword, and no list of references goes on past an `AS` after one;
* `TableReference.extract_respell`: the references read from such tokens are those read before, with
  the words as their aliases.
-/

namespace SqlCompletion

/-! ### Tokens with words written after them -/

/-- The token without its place. -/
def Token.unplaced (t : Token) : Token :=
  { t with start := 0, stop := 0 }

/-- The tokens by which a word is written after another one. -/
def spacedTokens : Option String → List Token
  | none => []
  | some w => [⟨.whitespace, " ", 0, 0⟩, ⟨wordKind w.toList, w, 0, 0⟩]

/-- The tokens with words written after those that end at given byte offsets. -/
def respell (words : ℕ → Option String) (tokens : List Token) : List Token :=
  tokens.flatMap fun t => t.unplaced :: spacedTokens (words t.stop)

/-- Words are written after identifiers only. -/
def OnIdentifiers (words : ℕ → Option String) (tokens : List Token) : Prop :=
  ∀ t ∈ tokens, words t.stop ≠ none → t.kind = .identifier

section Readers

variable {words : ℕ → Option String} {tokens : List Token}

@[simp] lemma respell_nil : respell words [] = [] := rfl

lemma respell_cons (t : Token) (tokens : List Token) :
    respell words (t :: tokens) =
      t.unplaced :: (spacedTokens (words t.stop) ++ respell words tokens) := rfl

lemma OnIdentifiers.suffix {rest : List Token} (h : OnIdentifiers words tokens)
    (hsuffix : rest <:+ tokens) : OnIdentifiers words rest :=
  fun t ht => h t (hsuffix.mem ht)

lemma OnIdentifiers.none_of_kind {t : Token} (h : OnIdentifiers words tokens) (ht : t ∈ tokens)
    (hkind : t.kind ≠ .identifier) : words t.stop = none := by
  by_contra hwords
  exact hkind (h t ht hwords)

lemma skipTrivia_respell (h : OnIdentifiers words tokens) :
    skipTrivia (respell words tokens) = respell words (skipTrivia tokens) := by
  induction tokens with
  | nil => rfl
  | cons t tokens ih =>
      rw [respell_cons, skipTrivia, skipTrivia, List.dropWhile_cons, List.dropWhile_cons]
      by_cases ht : t.isTrivia
      · have hnone : words t.stop = none := by
          refine h.none_of_kind (List.mem_cons_self ..) fun hkind => ?_
          rw [Token.isTrivia, hkind] at ht
          cases ht
        have hunplaced : t.unplaced.isTrivia = true := ht
        rw [if_pos hunplaced, if_pos ht, hnone]
        exact ih (h.suffix (List.suffix_cons t tokens))
      · have hunplaced : ¬ t.unplaced.isTrivia = true := ht
        rw [if_neg hunplaced, if_neg ht, respell_cons]

lemma readIdentifier?_respell (h : OnIdentifiers words tokens) :
    readIdentifier? (respell words tokens) = (readIdentifier? tokens).map fun (t, rest) =>
      (t.unplaced, spacedTokens (words t.stop) ++ respell words rest) := by
  rw [readIdentifier?, readIdentifier?, skipTrivia_respell h]
  cases skipTrivia tokens with
  | nil => rfl
  | cons t rest =>
      rw [respell_cons]
      by_cases hkind : t.kind = .identifier
      · simp [Token.unplaced, hkind]
      · simp [Token.unplaced, hkind]

/-- A word is a keyword or an identifier. -/
lemma skipTrivia_spaced (w : String) (rest : List Token) :
    skipTrivia (spacedTokens (some w) ++ rest) = ⟨wordKind w.toList, w, 0, 0⟩ :: rest := by
  rcases wordKind_cases w.toList with hkind | ⟨k, hkind⟩ <;> rw [spacedTokens, hkind] <;> rfl

lemma TableReference.readName?_respell (h : OnIdentifiers words tokens)
    (hfirst : ∀ first rest dot more, readIdentifier? tokens = some (first, rest) →
      skipTrivia rest = dot :: more → dot.kind = .dot → words first.stop = none) :
    readName? (respell words tokens) = (readName? tokens).map fun ((database, t), rest) =>
      ((database.map Token.unplaced, t.unplaced),
        spacedTokens (words t.stop) ++ respell words rest) := by
  rw [readName?, readName?, readIdentifier?_respell h]
  cases hread : readIdentifier? tokens with
  | none => rfl
  | some x =>
      obtain ⟨first, rest⟩ := x
      have hrest : OnIdentifiers words rest :=
        h.suffix (suffix_of_cons_suffix (suffix_of_readIdentifier? hread))
      simp only [Option.map_some]
      cases hword : words first.stop with
      | none =>
          rw [spacedTokens, List.nil_append, skipTrivia_respell hrest]
          cases hskip : skipTrivia rest with
          | nil => simp [hword, spacedTokens]
          | cons t more =>
              rw [respell_cons]
              by_cases hdot : t.kind = .dot
              · have hmore : OnIdentifiers words more :=
                  hrest.suffix (suffix_of_cons_suffix (suffix_of_skipTrivia hskip))
                have hnone : words t.stop = none :=
                  hrest.none_of_kind ((suffix_of_skipTrivia hskip).mem (List.mem_cons_self ..))
                    (by simp [hdot])
                have hunplaced : t.unplaced.kind = .dot := hdot
                simp only [hunplaced, hdot, if_true, hnone, spacedTokens, List.nil_append,
                  readIdentifier?_respell hmore]
                cases readIdentifier? more <;> rfl
              · have hunplaced : t.unplaced.kind ≠ .dot := hdot
                simp [hunplaced, hdot, hword, spacedTokens]
      | some w =>
          have hword' : wordKind w.toList ≠ .dot := by
            rcases wordKind_cases w.toList with hkind | ⟨k, hkind⟩ <;> simp [hkind]
          rw [skipTrivia_spaced]
          cases hskip : skipTrivia rest with
          | nil => simp [hword, hword']
          | cons t more =>
              by_cases hdot : t.kind = .dot
              · rw [hfirst first rest t more hread hskip hdot] at hword
                cases hword
              · simp [hdot, hword, hword']

namespace TableReference

lemma skipAs_respell (h : OnIdentifiers words tokens) :
    skipAs (respell words tokens) = respell words (skipAs tokens) := by
  rw [skipAs, skipAs, skipTrivia_respell h]
  cases hskip : skipTrivia tokens with
  | nil => rfl
  | cons t rest =>
      rw [respell_cons]
      by_cases has : t.isKeyword .AS
      · have hnone : words t.stop = none := by
          refine h.none_of_kind ((suffix_of_skipTrivia hskip).mem (List.mem_cons_self ..)) ?_
          intro hkind
          rw [Token.isKeyword, hkind] at has
          cases has
        have hunplaced : t.unplaced.isKeyword .AS = true := has
        simp only [hunplaced, has, if_true, hnone]
        rfl
      · have hunplaced : ¬ t.unplaced.isKeyword .AS = true := has
        simp only [if_neg hunplaced, if_neg has]

lemma skipComma?_respell (h : OnIdentifiers words tokens) :
    skipComma? (respell words tokens) = (skipComma? tokens).map (respell words) := by
  rw [skipComma?, skipComma?, skipTrivia_respell h]
  cases hskip : skipTrivia tokens with
  | nil => rfl
  | cons t rest =>
      rw [respell_cons]
      by_cases hcomma : t.kind = .comma
      · have hnone : words t.stop = none :=
          h.none_of_kind ((suffix_of_skipTrivia hskip).mem (List.mem_cons_self ..))
            (by simp [hcomma])
        have hunplaced : t.unplaced.kind = .comma := hcomma
        simp [hunplaced, hcomma, hnone, spacedTokens]
      · have hunplaced : t.unplaced.kind ≠ .comma := hcomma
        simp [hunplaced, hcomma]

/-- An alias that is written already is read as before. -/
lemma readAlias_respell (h : OnIdentifiers words tokens)
    (halias : ∀ t rest, readIdentifier? (skipAs tokens) = some (t, rest) → words t.stop = none) :
    readAlias (respell words tokens) =
      ((readAlias tokens).1, respell words (readAlias tokens).2) := by
  rw [readAlias, readAlias, skipAs_respell h,
    readIdentifier?_respell (h.suffix (skipAs_suffix tokens))]
  cases hread : readIdentifier? (skipAs tokens) with
  | none => rfl
  | some x =>
      obtain ⟨t, rest⟩ := x
      simp [halias t rest hread, spacedTokens, Token.unplaced]

/-- An identifier that is written after a name is read as its alias, and nothing more is read. -/
lemma readAlias_spaced {w : String} (hw : wordKind w.toList = .identifier) (rest : List Token) :
    readAlias (spacedTokens (some w) ++ rest) = (some w, rest) := by
  have hskip : skipAs (spacedTokens (some w) ++ rest) = spacedTokens (some w) ++ rest := by
    rw [skipAs, skipTrivia_spaced, hw]
    rfl
  rw [readAlias, hskip, readIdentifier?, skipTrivia_spaced, hw]
  rfl

end TableReference

end Readers

/-! ### Aliases among tokens -/

namespace TableReference

/-- An `AS` without a name comes next, then a comma and another reference. -/
def continuesPastAs (tokens : List Token) : Bool :=
  match skipTrivia tokens with
  | t :: rest => t.isKeyword .AS && ((skipComma? rest).bind read?).isSome
  | [] => false

/-- The reference with the word at the place of its alias as its alias. Where it stands is
forgotten. -/
def withWord (words : ℕ → Option String) (r : TableReference) : TableReference :=
  let aliasName := r.aliasName.or (r.aliasPlace.bind words)
  { database := r.database
    table := r.table
    aliasName := aliasName
    aliasPlace := if aliasName.isSome then none else some 0
    nameEnd := 0 }

end TableReference

open TableReference

/-- The words among the tokens stand where the references want an alias. -/
structure AliasesFor (words : ℕ → Option String) (tokens : List Token)
    (refs : List TableReference) : Prop where
  increasing : (tokens.map Token.stop).Pairwise (· < ·)
  onIdentifiers : OnIdentifiers words tokens
  atPlaces : ∀ t ∈ tokens, words t.stop ≠ none → t.stop ∈ aliasPlaces refs

/-- The words among the tokens are identifiers, and no list of references goes on past an `AS` after
one of them. -/
def Legible (words : ℕ → Option String) (tokens : List Token) : Prop :=
  ∀ t after, t :: after <:+ tokens → ∀ w, words t.stop = some w →
    wordKind w.toList = .identifier ∧ continuesPastAs after = false

lemma Legible.suffix {words : ℕ → Option String} {tokens rest : List Token}
    (h : Legible words tokens) (hsuffix : rest <:+ tokens) : Legible words rest :=
  fun t after ht => h t after (ht.trans hsuffix)

namespace AliasesFor

variable {words : ℕ → Option String} {tokens after : List Token} {refs : List TableReference}
  {t : Token}

/-- The same holds of later tokens and references. -/
lemma suffix {rest : List Token} {r : List ℕ} {later : List TableReference}
    (h : AliasesFor words tokens refs) (hrefs : aliasPlaces refs = r ++ aliasPlaces later)
    (hsuffix : rest <:+ tokens)
    (hbefore : (r ++ rest.map Token.stop).Sublist (tokens.map Token.stop)) :
    AliasesFor words rest later where
  increasing := h.increasing.sublist (hsuffix.sublist.map Token.stop)
  onIdentifiers := h.onIdentifiers.suffix hsuffix
  atPlaces t ht hword := by
    have hplace := h.atPlaces t (hsuffix.mem ht) hword
    rw [hrefs, List.mem_append] at hplace
    refine hplace.resolve_left fun hr => ?_
    have hlt := (List.pairwise_append.mp (h.increasing.sublist hbefore)).2.2 t.stop hr t.stop
      (List.mem_map_of_mem ht)
    exact lt_irrefl _ hlt

lemma rest {rest : List Token} (h : AliasesFor words tokens refs) (hsuffix : rest <:+ tokens) :
    AliasesFor words rest refs :=
  h.suffix (r := []) rfl hsuffix (hsuffix.sublist.map Token.stop)

/-- No word is written after a token that is followed by all the places. -/
lemma eq_none (h : AliasesFor words tokens refs) (hsuffix : t :: after <:+ tokens)
    (hplaces : (aliasPlaces refs).Sublist (after.map Token.stop)) : words t.stop = none := by
  by_contra hword
  have hmem := hplaces.mem (h.atPlaces t (hsuffix.mem (List.mem_cons_self ..)) hword)
  have hincreasing := h.increasing.sublist (hsuffix.sublist.map Token.stop)
  exact lt_irrefl _ ((List.pairwise_cons.mp hincreasing).1 t.stop hmem)

/-- No word is written after the first of two names with a dot between them. -/
lemma eq_none_of_dot (h : AliasesFor words tokens (upcoming tokens)) (first : Token)
    (rest : List Token) (dot : Token) (more : List Token)
    (hfirst : readIdentifier? tokens = some (first, rest)) (hdot : skipTrivia rest = dot :: more)
    (hkind : dot.kind = .dot) : words first.stop = none :=
  h.eq_none (suffix_of_readIdentifier? hfirst)
    (aliasPlaces_upcoming_sublist_of_dot hfirst hdot hkind)

/-- The words after the name of a reference are aliases of what follows the reference. -/
lemma after_name {database : Option Token} (h : AliasesFor words tokens (upcoming tokens))
    (hname : readName? tokens = some ((database, t), after)) :
    AliasesFor words after (following (readAlias after).2) := by
  have hread := read?_of_readName? hname
  have hsuffix := (suffix_of_readName? hname).1
  rw [upcoming_of_some hread] at h
  exact h.suffix (aliasPlaces_cons ..) (suffix_of_cons_suffix hsuffix)
    (((aliasPlace_sublist_of_read? hread).append (List.Sublist.refl _)).trans
      (hsuffix.sublist.map Token.stop))

/-- No word is written after a token where only the places of what follows a reference come. -/
lemma eq_none_of_alias {rest : List Token} {r : TableReference}
    (h : AliasesFor words tokens (upcoming tokens)) (hread : read? tokens = some (r, rest))
    (halias : r.aliasName.isSome) (hsuffix : t :: after <:+ tokens) (hrest : rest <:+ after) :
    words t.stop = none := by
  refine h.eq_none hsuffix ?_
  obtain ⟨t', -, -, -, hnamed⟩ := exists_of_read? hread
  have hplace := hnamed.aliasPlace
  rw [if_pos halias] at hplace
  rw [upcoming_of_some hread, aliasPlaces_cons, hplace]
  exact (aliasPlaces_following_sublist rest).trans (hrest.sublist.map Token.stop)

end AliasesFor

namespace TableReference

variable {words : ℕ → Option String} {tokens rest : List Token}

/-- What is read again at the places where lists of references may begin. -/
def Reread (words : ℕ → Option String) (read : List Token → List TableReference)
    (tokens : List Token) : Prop :=
  AliasesFor words tokens (read tokens) → Legible words tokens →
    read (respell words tokens) = (read tokens).map (withWord words)

lemma following_respell (h : OnIdentifiers words rest) :
    following (respell words rest) =
      match skipComma? rest with
      | none => extract (respell words rest)
      | some more => upcoming (respell words more) := by
  rw [following, skipComma?_respell h]
  cases skipComma? rest <;> rfl

/-- After a reference, what follows is read again. -/
lemma reread_following (hextract : Reread words extract rest)
    (hupcoming : ∀ more, skipComma? rest = some more → Reread words upcoming more) :
    Reread words following rest := by
  intro h hlegible
  rw [following_respell h.onIdentifiers]
  rw [following] at h ⊢
  cases hcomma : skipComma? rest with
  | none =>
      rw [hcomma] at h
      exact hextract h hlegible
  | some more =>
      rw [hcomma] at h
      exact hupcoming more hcomma (h.rest (suffix_of_skipComma? hcomma))
        (hlegible.suffix (suffix_of_skipComma? hcomma))

/-- The name of a reference is read again, and what comes next is the word written after it. -/
lemma readName?_respell_of_some {database : Option Token} {t : Token} {after : List Token}
    (h : AliasesFor words tokens (upcoming tokens))
    (hname : readName? tokens = some ((database, t), after)) :
    readName? (respell words tokens) = some ((database.map Token.unplaced, t.unplaced),
      spacedTokens (words t.stop) ++ respell words after) := by
  rw [readName?_respell h.onIdentifiers h.eq_none_of_dot, hname]
  rfl

lemma withWord_ofParts (database : Option Token) (t : Token) (aliasName : Option String) :
    (ofParts database t aliasName).withWord words =
      ofParts (database.map Token.unplaced) t.unplaced (aliasName.or (words t.stop)) := by
  cases aliasName with
  | none =>
      cases database <;> cases hword : words t.stop <;>
        simp [withWord, ofParts, Token.unplaced, hword]
  | some a => cases database <;> rfl

/-- A reference after whose name no word is written is read again, and what is left after it is what
was left before. -/
lemma read?_respell_of_none {database : Option Token} {t : Token} {after : List Token}
    (h : AliasesFor words tokens (upcoming tokens))
    (hname : readName? tokens = some ((database, t), after)) (hnone : words t.stop = none) :
    read? (respell words tokens) = some ((ofParts database t (readAlias after).1).withWord words,
      respell words (readAlias after).2) := by
  have hread := read?_of_readName? hname
  have hafter : after <:+ tokens := suffix_of_cons_suffix (suffix_of_readName? hname).1
  have halias : ∀ t' rest, readIdentifier? (skipAs after) = some (t', rest) →
      words t'.stop = none := by
    intro t' rest hidentifier
    have hreadAlias : readAlias after = (some t'.value, rest) := by rw [readAlias, hidentifier]
    have hsuffix : t' :: rest <:+ tokens :=
      ((suffix_of_readIdentifier? hidentifier).trans (skipAs_suffix after)).trans hafter
    exact h.eq_none_of_alias hread (by simp [ofParts, hreadAlias]) hsuffix (by rw [hreadAlias])
  refine read?_eq_some_iff.mpr ⟨database.map Token.unplaced, t.unplaced, respell words after,
    ?_, ?_, ?_⟩
  · rw [readName?_respell_of_some h hname, hnone]
    rfl
  · rw [readAlias_respell (h.onIdentifiers.suffix hafter) halias, withWord_ofParts, hnone,
      Option.or_none]
  · rw [readAlias_respell (h.onIdentifiers.suffix hafter) halias]

/-- A word is written only after the name of a reference without an alias. -/
lemma readAlias_of_word {database : Option Token} {t : Token} {after : List Token} {w : String}
    (h : AliasesFor words tokens (upcoming tokens))
    (hname : readName? tokens = some ((database, t), after)) (hword : words t.stop = some w) :
    readAlias after = (none, skipAs after) := by
  have hread := read?_of_readName? hname
  have hnone : (readAlias after).1 = none := by
    by_contra halias
    have hnone := h.eq_none_of_alias hread (Option.isSome_iff_ne_none.mpr halias)
      (suffix_of_readName? hname).1 (readAlias_suffix after)
    rw [hnone] at hword
    cases hword
  rw [readAlias] at hnone ⊢
  split at hnone
  · cases hnone
  · rfl

/-- A word after the name of a reference is read as its alias where it is an identifier, and all
that comes after the name is left. -/
lemma read?_respell_of_some {database : Option Token} {t : Token} {after : List Token} {w : String}
    (h : AliasesFor words tokens (upcoming tokens))
    (hname : readName? tokens = some ((database, t), after)) (hword : words t.stop = some w)
    (hidentifier : wordKind w.toList = .identifier) :
    read? (respell words tokens) = some ((ofParts database t (readAlias after).1).withWord words,
      respell words after) := by
  refine read?_eq_some_iff.mpr ⟨database.map Token.unplaced, t.unplaced,
    spacedTokens (some w) ++ respell words after, ?_, ?_, ?_⟩
  · rw [readName?_respell_of_some h hname, hword]
  · rw [readAlias_spaced hidentifier, withWord_ofParts, readAlias_of_word h hname hword, hword]
    rfl
  · rw [readAlias_spaced hidentifier]

/-- Where an alias was written before an `AS` without a name, what follows is what the query goes on
with. -/
lemma following_respell_of_as {as : Token} {after more : List Token}
    (h : OnIdentifiers words after) (hskip : skipTrivia after = as :: more)
    (has : as.isKeyword .AS = true) :
    following (respell words after) = extract (respell words more) := by
  have hkind : as.kind = .keyword .AS := by simpa [Token.isKeyword] using has
  have hcomma : skipComma? after = none := by
    rw [skipComma?, hskip]
    simp [hkind]
  have hnone : words as.stop = none :=
    h.none_of_kind ((suffix_of_skipTrivia hskip).mem (List.mem_cons_self ..)) (by simp [hkind])
  have hskip' : skipTrivia (respell words after) = as.unplaced :: respell words more := by
    rw [skipTrivia_respell h, hskip, respell_cons, hnone]
    rfl
  have hkind' : as.unplaced.kind = .keyword .AS := hkind
  rw [following, skipComma?_respell h, hcomma]
  exact extract_of_skipTrivia hskip' (by simp [hkind']) (by simp [hkind'])

/-- After a name with a word, all is read again unless the list goes on past an `AS`. -/
lemma following_respell_after {after : List Token}
    (h : AliasesFor words after (following (skipAs after))) (hlegible : Legible words after)
    (hends : continuesPastAs after = false) (hextract : Reread words extract (skipAs after))
    (hfollowing : Reread words following (skipAs after)) :
    following (respell words after) = (following (skipAs after)).map (withWord words) := by
  have hlater := h.rest (skipAs_suffix after)
  have hlegible' := hlegible.suffix (skipAs_suffix after)
  rw [skipAs] at hextract hfollowing hlater hlegible' ⊢
  cases hskip : skipTrivia after with
  | nil =>
      simp only [hskip] at hfollowing hlater hlegible'
      exact hfollowing hlater hlegible'
  | cons as more =>
      simp only [hskip] at hextract hfollowing hlater hlegible' ⊢
      split_ifs at hextract hfollowing hlater hlegible' ⊢ with has
      · have hnone : (skipComma? more).bind read? = none := by
          rw [continuesPastAs, hskip] at hends
          simpa [has] using hends
        rw [following_of_bind_eq_none hnone] at hlater ⊢
        rw [following_respell_of_as h.onIdentifiers hskip has]
        exact hextract hlater hlegible'
      · exact hfollowing hlater hlegible'

/-- Where no name is read, none is read again. -/
lemma read?_respell_of_eq_none (h : AliasesFor words tokens (upcoming tokens))
    (hread : read? tokens = none) : read? (respell words tokens) = none := by
  rw [read?_eq_none_iff, readName?_respell h.onIdentifiers h.eq_none_of_dot,
    read?_eq_none_iff.mp hread]
  rfl

lemma extract_respell_cons {t : Token} (hnone : words t.stop = none) :
    extract (respell words (t :: rest)) =
      if t.isKeyword .FROM || t.isKeyword .JOIN then upcoming (respell words rest)
      else extract (respell words rest) := by
  rw [respell_cons, hnone, spacedTokens, List.nil_append, extract_cons]
  rfl

lemma reread_extract_and_upcoming (tokens : List Token) :
    Reread words extract tokens ∧ Reread words upcoming tokens := by
  refine reading_induction (E := Reread words extract) (U := Reread words upcoming)
    ?nil ?opens ?passes ?none ?reads tokens
  case nil =>
      intro _ _
      simp [extract]
  case opens =>
      intro t rest ht ih h hlegible
      rw [extract_cons, if_pos ht] at h ⊢
      have hnone := h.eq_none (List.suffix_refl _) (aliasPlaces_upcoming_sublist rest)
      rw [extract_respell_cons hnone, if_pos ht]
      exact ih (h.rest (List.suffix_cons t rest)) (hlegible.suffix (List.suffix_cons t rest))
  case passes =>
      intro t rest ht ih h hlegible
      rw [extract_cons, ht] at h ⊢
      have hnone := h.eq_none (List.suffix_refl _) (aliasPlaces_extract_sublist rest)
      rw [extract_respell_cons hnone, ht]
      exact ih (h.rest (List.suffix_cons t rest)) (hlegible.suffix (List.suffix_cons t rest))
  case none =>
      intro tokens hread ih h hlegible
      rw [upcoming_of_none (read?_respell_of_eq_none h hread)]
      rw [upcoming_of_none hread] at h ⊢
      exact ih h hlegible
  case reads =>
      intro tokens r rest hread ih ihmore h hlegible
      obtain ⟨database, t, after, hname, rfl, rfl⟩ := read?_eq_some_iff.mp hread
      have hsuffix := (suffix_of_readName? hname).1
      have hfollowing := reread_following ih ihmore
      have hafter := h.after_name hname
      have hlegible' := hlegible.suffix (suffix_of_cons_suffix hsuffix)
      rw [upcoming_of_some hread, List.map_cons]
      cases hword : words t.stop with
      | none =>
          rw [upcoming_of_some (read?_respell_of_none h hname hword)]
          rw [hfollowing (hafter.rest (readAlias_suffix after))
            (hlegible'.suffix (readAlias_suffix after))]
      | some w =>
          obtain ⟨hidentifier, hends⟩ := hlegible t after hsuffix w hword
          rw [upcoming_of_some (read?_respell_of_some h hname hword hidentifier)]
          rw [readAlias_of_word h hname hword] at ih hfollowing hafter ⊢
          rw [following_respell_after hafter hlegible' hends ih hfollowing]

/-- The references are read again, each with the word at the place of its alias as its alias. -/
lemma extract_respell (h : AliasesFor words tokens (extract tokens))
    (hlegible : Legible words tokens) :
    extract (respell words tokens) = (extract tokens).map (withWord words) :=
  (reread_extract_and_upcoming tokens).1 h hlegible

end TableReference

end SqlCompletion
