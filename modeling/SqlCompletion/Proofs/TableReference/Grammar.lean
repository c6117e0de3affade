import SqlCompletion.Proofs.TableReference.Trivia

/-!
The grammar of references, and how the references of a query are read by it.

The grammar is stated for tokens without trivia, and leaves open how far an alias or a list goes on.
The reader settles this: it takes as much as it can.

* `TableReference.IsName`, `TableReference.IsAlias`, `TableReference.IsReference`,
  `TableReference.IsList`: what may stand at the front of some tokens, and the tokens after it;
* `TableReference.readName?_eq_some_iff`: a name is read exactly where the grammar has one;
* `TableReference.IsAlias.eq_or_ends`: an alias that is not the one read ends earlier, and no list
  goes on after it;
* `TableReference.exists_isGreedy`: so the list that is read leaves fewer tokens than any other one
  of the grammar;
* `TableReference.isLongest_iff`: which makes it the longest;
* `TableReference.openings`: the places where the query begins a list, one for each `FROM` and
  `JOIN`;
* `TableReference.extract_eq_flatMap`: the references of a query are those of the longest list at
  each of these places. Passing over what was read misses none of them and reads none twice.
-/

namespace SqlCompletion.TableReference

/-! ### The grammar -/

/-- A name at the front of the tokens: an identifier that no dot follows, or two identifiers with a
dot between them. -/
inductive IsName : List Token → Option Token → Token → List Token → Prop
  | plain {t rest} : t.kind = .identifier → (∀ dot ∈ rest.head?, dot.kind ≠ .dot) →
      IsName (t :: rest) none t rest
  | dotted {database dot t rest} : database.kind = .identifier → dot.kind = .dot →
      t.kind = .identifier → IsName (database :: dot :: t :: rest) (some database) t rest

/-- What may come after a name: nothing, an alias, an `AS` with an alias, or an `AS` alone, which
gives no alias. -/
inductive IsAlias : List Token → Option String → List Token → Prop
  | absent {rest} : IsAlias rest none rest
  | bare {t rest} : t.kind = .identifier → IsAlias (t :: rest) (some t.value) rest
  | introduced {word t rest} : word.kind = .keyword .AS → t.kind = .identifier →
      IsAlias (word :: t :: rest) (some t.value) rest
  | dangling {word rest} : word.kind = .keyword .AS → IsAlias (word :: rest) none rest

/-- A reference at the front of the tokens: a name and what comes after it. An alias may be appended
at the end of the name when none is written. -/
inductive IsReference : List Token → TableReference → List Token → Prop
  | mk {tokens database t after aliasName rest} : IsName tokens database t after →
      IsAlias after aliasName rest →
      IsReference tokens
        { database := database.map Token.value
          table := t.value
          aliasName := aliasName
          aliasPlace := if aliasName.isSome then none else some t.stop
          nameEnd := t.stop }
        rest

/-- A list of references at the front of the tokens, with commas between them. -/
inductive IsList : List Token → List TableReference → List Token → Prop
  | empty {tokens} : IsList tokens [] tokens
  | last {tokens r rest} : IsReference tokens r rest → IsList tokens [r] rest
  | more {tokens r comma more refs rest} : IsReference tokens r (comma :: more) →
      comma.kind = .comma → IsList more refs rest → refs ≠ [] → IsList tokens (r :: refs) rest

/-- The longest list of references at the front of the tokens: no other takes more tokens, and none
has more references. -/
def IsLongest (tokens : List Token) (refs : List TableReference) : Prop :=
  ∃ rest, IsList tokens refs rest ∧
    ∀ refs' rest', IsList tokens refs' rest' →
      rest.length ≤ rest'.length ∧ refs'.length ≤ refs.length

/-! ### Readers on tokens without trivia -/

/-- None of the tokens is trivia. -/
def Clear (tokens : List Token) : Prop :=
  ∀ t ∈ tokens, t.isTrivia = false

lemma clear_significant (tokens : List Token) : Clear (significant tokens) := by
  intro t ht
  simpa using (List.mem_filter.mp ht).2

lemma Clear.suffix {tokens rest : List Token} (h : Clear tokens) (hrest : rest <:+ tokens) :
    Clear rest :=
  fun t ht => h t (hrest.mem ht)

lemma Clear.tail {t : Token} {rest : List Token} (h : Clear (t :: rest)) : Clear rest :=
  h.suffix (List.suffix_cons t rest)

lemma Clear.skipTrivia_eq {tokens : List Token} (h : Clear tokens) :
    skipTrivia tokens = tokens := by
  cases tokens with
  | nil => rfl
  | cons t rest => exact List.dropWhile_cons_of_neg (by simp [h t])

namespace Clear

variable {t word : Token} {rest : List Token}

lemma readIdentifier?_cons (h : Clear (t :: rest)) :
    readIdentifier? (t :: rest) = if t.kind = .identifier then some (t, rest) else none := by
  rw [readIdentifier?, h.skipTrivia_eq]

lemma readName?_singleton (h : Clear [t]) (ht : t.kind = .identifier) :
    readName? [t] = some ((none, t), []) := by
  rw [readName?, h.readIdentifier?_cons, if_pos ht]
  rfl

lemma readName?_cons_cons (h : Clear (t :: word :: rest)) (ht : t.kind = .identifier) :
    readName? (t :: word :: rest) =
      if word.kind = .dot then (readIdentifier? rest).map fun read => ((some t, read.1), read.2)
      else some ((none, t), word :: rest) := by
  rw [readName?, h.readIdentifier?_cons, if_pos ht]
  simp only [h.tail.skipTrivia_eq]
  cases readIdentifier? rest <;> rfl

lemma readAlias_of_identifier (h : Clear (t :: rest)) (ht : t.kind = .identifier) :
    readAlias (t :: rest) = (some t.value, rest) := by
  have has : skipAs (t :: rest) = t :: rest := by
    simp [skipAs, h.skipTrivia_eq, Token.isKeyword, ht]
  rw [readAlias, has, h.readIdentifier?_cons, if_pos ht]

lemma readAlias_as (h : Clear [t]) (ht : t.kind = .keyword .AS) : readAlias [t] = (none, []) := by
  have has : skipAs [t] = [] := by
    simp [skipAs, h.skipTrivia_eq, Token.isKeyword, ht]
  rw [readAlias, has]
  rfl

lemma readAlias_as_cons (h : Clear (t :: word :: rest)) (ht : t.kind = .keyword .AS) :
    readAlias (t :: word :: rest) =
      if word.kind = .identifier then (some word.value, rest) else (none, word :: rest) := by
  have has : skipAs (t :: word :: rest) = word :: rest := by
    simp [skipAs, h.skipTrivia_eq, Token.isKeyword, ht]
  rw [readAlias, has, h.tail.readIdentifier?_cons]
  split_ifs <;> rfl

lemma readAlias_of_other (h : Clear (t :: rest)) (ht : t.kind ≠ .identifier)
    (has : t.kind ≠ .keyword .AS) : readAlias (t :: rest) = (none, t :: rest) := by
  have hsame : skipAs (t :: rest) = t :: rest := by
    simp [skipAs, h.skipTrivia_eq, Token.isKeyword, has]
  rw [readAlias, hsame, h.readIdentifier?_cons, if_neg ht]

lemma skipComma?_cons (h : Clear (t :: rest)) (ht : t.kind = .comma) :
    skipComma? (t :: rest) = some rest := by
  rw [skipComma?, h.skipTrivia_eq]
  exact if_pos ht

lemma exists_of_skipComma? {more : List Token} (h : Clear rest)
    (hcomma : skipComma? rest = some more) :
    ∃ comma, comma.kind = .comma ∧ rest = comma :: more := by
  rw [skipComma?, h.skipTrivia_eq] at hcomma
  rcases rest with _ | ⟨comma, rest⟩
  · cases hcomma
  · simp only at hcomma
    split_ifs at hcomma with hkind
    exact ⟨comma, hkind, congrArg _ (Option.some.inj hcomma)⟩

end Clear

/-! ### Names, aliases and references -/

variable {tokens rest : List Token} {r : TableReference}

/-- A name is read exactly where the grammar has one. -/
lemma readName?_eq_some_iff (h : Clear tokens) {database : Option Token} {t : Token}
    {after : List Token} :
    readName? tokens = some ((database, t), after) ↔ IsName tokens database t after := by
  constructor
  · intro hread
    rcases tokens with _ | ⟨first, rest⟩
    · cases hread
    have hfirst : first.kind = .identifier := by
      by_contra hne
      rw [readName?, h.readIdentifier?_cons, if_neg hne] at hread
      cases hread
    rcases rest with _ | ⟨dot, more⟩
    · rw [h.readName?_singleton hfirst] at hread
      cases hread
      exact .plain hfirst (by simp)
    · rw [h.readName?_cons_cons hfirst] at hread
      split_ifs at hread with hdot
      · obtain ⟨⟨second, rest⟩, hsecond, heq⟩ := Option.map_eq_some_iff.mp hread
        cases heq
        obtain ⟨hskip, hkind⟩ := readIdentifier?_eq_some_iff.mp hsecond
        rw [h.tail.tail.skipTrivia_eq] at hskip
        rw [hskip]
        exact .dotted hfirst hdot hkind
      · cases hread
        exact .plain hfirst (by simpa using hdot)
  · intro hname
    cases hname with
    | plain ht hdot =>
        rcases after with _ | ⟨dot, more⟩
        · exact h.readName?_singleton ht
        · rw [h.readName?_cons_cons ht, if_neg (hdot dot rfl)]
    | dotted hdatabase hdot ht =>
        rw [h.readName?_cons_cons hdatabase, if_pos hdot, h.tail.tail.readIdentifier?_cons,
          if_pos ht, Option.map_some]

/-- What is read after a name is in the grammar. -/
lemma isAlias_readAlias (h : Clear tokens) :
    IsAlias tokens (readAlias tokens).1 (readAlias tokens).2 := by
  rcases tokens with _ | ⟨t, rest⟩
  · exact .absent
  by_cases ht : t.kind = .identifier
  · rw [h.readAlias_of_identifier ht]
    exact .bare ht
  by_cases has : t.kind = .keyword .AS
  · rcases rest with _ | ⟨word, more⟩
    · rw [h.readAlias_as has]
      exact .dangling has
    · rw [h.readAlias_as_cons has]
      split_ifs with hword
      · exact .introduced has hword
      · exact .dangling has
  · rw [h.readAlias_of_other ht has]
    exact .absent

/-- What the grammar allows after a name is what is read, or it leaves more tokens, and then they do
not begin with a comma. -/
lemma IsAlias.eq_or_ends (h : Clear tokens) {aliasName : Option String}
    (halias : IsAlias tokens aliasName rest) :
    (aliasName = (readAlias tokens).1 ∧ rest = (readAlias tokens).2) ∨
      ((readAlias tokens).2.length < rest.length ∧ ∀ t ∈ rest.head?, t.kind ≠ .comma) := by
  cases halias with
  | absent =>
      rcases tokens with _ | ⟨t, rest⟩
      · exact .inl ⟨rfl, rfl⟩
      by_cases ht : t.kind = .identifier
      · rw [h.readAlias_of_identifier ht]
        exact .inr ⟨Nat.lt_succ_self _, by simp [ht]⟩
      by_cases has : t.kind = .keyword .AS
      · refine .inr ⟨?_, by simp [has]⟩
        rcases rest with _ | ⟨word, more⟩
        · rw [h.readAlias_as has]
          exact Nat.lt_succ_self _
        · rw [h.readAlias_as_cons has]
          split_ifs <;> simp
      · rw [h.readAlias_of_other ht has]
        exact .inl ⟨rfl, rfl⟩
  | bare ht =>
      rw [h.readAlias_of_identifier ht]
      exact .inl ⟨rfl, rfl⟩
  | introduced has ht =>
      rw [h.readAlias_as_cons has, if_pos ht]
      exact .inl ⟨rfl, rfl⟩
  | dangling has =>
      rcases rest with _ | ⟨word, more⟩
      · rw [h.readAlias_as has]
        exact .inl ⟨rfl, rfl⟩
      · rw [h.readAlias_as_cons has]
        split_ifs with hword
        · exact .inr ⟨Nat.lt_succ_self _, by simp [hword]⟩
        · exact .inl ⟨rfl, rfl⟩

/-- A reference that is read is in the grammar. -/
lemma isReference_of_read? (h : Clear tokens) (hread : read? tokens = some (r, rest)) :
    IsReference tokens r rest := by
  obtain ⟨database, t, after, hname, rfl, rfl⟩ := read?_eq_some_iff.mp hread
  have hafter : after <:+ tokens := suffix_of_cons_suffix (suffix_of_readName? hname).1
  exact .mk ((readName?_eq_some_iff h).mp hname) (isAlias_readAlias (h.suffix hafter))

/-- A reference of the grammar is the one read, or it leaves more tokens, and then they do not begin
with a comma. -/
lemma IsReference.eq_or_ends (h : Clear tokens) (hr : IsReference tokens r rest) :
    ∃ read left, read? tokens = some (read, left) ∧
      ((r = read ∧ rest = left) ∨
        (left.length < rest.length ∧ ∀ t ∈ rest.head?, t.kind ≠ .comma)) := by
  obtain ⟨hname, halias⟩ := hr
  have hread := (readName?_eq_some_iff h).mpr hname
  have hafter := suffix_of_cons_suffix (suffix_of_readName? hread).1
  refine ⟨_, _, read?_of_readName? hread, ?_⟩
  rcases halias.eq_or_ends (h.suffix hafter) with ⟨rfl, rfl⟩ | hends
  · exact .inl ⟨rfl, rfl⟩
  · exact .inr hends

/-! ### Lists -/

lemma IsReference.length_lt (h : IsReference tokens r rest) : rest.length < tokens.length := by
  obtain ⟨hname, halias⟩ := h
  cases hname <;> cases halias <;> simp only [List.length_cons] <;> omega

lemma IsList.length_le {refs : List TableReference} (h : IsList tokens refs rest) :
    rest.length ≤ tokens.length := by
  induction h with
  | empty => exact le_rfl
  | last hr => exact hr.length_lt.le
  | more hr _ _ _ ih =>
      have hlt := hr.length_lt
      rw [List.length_cons] at hlt
      omega

/-- How the lists of the grammar go on where a reference is read: they end before its last token, or
with it, or they go on after a comma. -/
lemma IsList.cases_of_read? (h : Clear tokens) {left : List Token} {refs : List TableReference}
    (hread : read? tokens = some (r, left)) (hlist : IsList tokens refs rest) :
    (refs.length ≤ 1 ∧ left.length < rest.length) ∨ (refs = [r] ∧ rest = left) ∨
      ∃ more others, skipComma? left = some more ∧ IsList more others rest ∧ others ≠ [] ∧
        refs = r :: others := by
  cases hlist with
  | empty => exact .inl ⟨Nat.zero_le 1, length_read?_lt hread⟩
  | last hr =>
      obtain ⟨r', left', hread', hcases⟩ := hr.eq_or_ends h
      cases hread.symm.trans hread'
      rcases hcases with ⟨rfl, rfl⟩ | ⟨hlt, -⟩
      · exact .inr (.inl ⟨rfl, rfl⟩)
      · exact .inl ⟨le_rfl, hlt⟩
  | more hr hcomma hmore hne =>
      obtain ⟨r', left', hread', hcases⟩ := hr.eq_or_ends h
      cases hread.symm.trans hread'
      rcases hcases with ⟨rfl, rfl⟩ | ⟨-, hends⟩
      · have hclear := h.suffix (suffix_of_read? hread)
        exact .inr (.inr ⟨_, _, hclear.skipComma?_cons hcomma, hmore, hne, rfl⟩)
      · exact absurd hcomma (hends _ rfl)

lemma IsList.eq_nil_of_read? (h : Clear tokens) {refs : List TableReference}
    (hread : read? tokens = none) (hlist : IsList tokens refs rest) :
    refs = [] ∧ rest = tokens := by
  cases hlist with
  | empty => exact ⟨rfl, rfl⟩
  | last hr | more hr =>
      obtain ⟨r', left', hread', -⟩ := hr.eq_or_ends h
      cases hread.symm.trans hread'

/-- The list is in the grammar, and every other list of the grammar leaves more tokens. None has
more references. -/
structure IsGreedy (tokens : List Token) (refs : List TableReference) (left : List Token) :
    Prop where
  isList : IsList tokens refs left
  eq_or_lt : ∀ refs' rest, IsList tokens refs' rest →
    (refs' = refs ∧ rest = left) ∨ left.length < rest.length
  length_le : ∀ refs' rest, IsList tokens refs' rest → refs'.length ≤ refs.length

namespace IsGreedy

variable {left more : List Token} {others : List TableReference}

/-- Without a reference there is only the empty list. -/
lemma of_none (h : Clear tokens) (hread : read? tokens = none) : IsGreedy tokens [] tokens where
  isList := .empty
  eq_or_lt refs' rest hlist := .inl (hlist.eq_nil_of_read? h hread)
  length_le refs' rest hlist := by rw [(hlist.eq_nil_of_read? h hread).1]

/-- A list ends with a reference when no list comes after the next comma. -/
lemma of_end (h : Clear tokens) (hread : read? tokens = some (r, left))
    (hend : ∀ more refs rest, skipComma? left = some more → IsList more refs rest → refs = []) :
    IsGreedy tokens [r] left := by
  have hcases : ∀ refs' rest, IsList tokens refs' rest →
      (refs'.length ≤ 1 ∧ left.length < rest.length) ∨ (refs' = [r] ∧ rest = left) := by
    intro refs' rest hlist
    rcases hlist.cases_of_read? h hread with hless | hsame | ⟨more, refs, hcomma, hmore, hne, -⟩
    · exact .inl hless
    · exact .inr hsame
    · exact absurd (hend more refs rest hcomma hmore) hne
  refine ⟨.last (isReference_of_read? h hread), fun refs' rest hlist => ?_,
    fun refs' rest hlist => ?_⟩
  · exact (hcases refs' rest hlist).symm.imp_right And.right
  · rcases hcases refs' rest hlist with hless | ⟨rfl, -⟩
    · exact hless.1
    · exact le_rfl

/-- A list goes on where one comes after the next comma. -/
lemma of_more {after : List Token} (h : Clear tokens) (hread : read? tokens = some (r, after))
    (hcomma : skipComma? after = some more) (hmore : IsGreedy more others left)
    (hne : others ≠ []) : IsGreedy tokens (r :: others) left := by
  obtain ⟨comma, hkind, rfl⟩ := (h.suffix (suffix_of_read? hread)).exists_of_skipComma? hcomma
  have hlt : left.length < (comma :: more).length := Nat.lt_succ_of_le hmore.isList.length_le
  refine ⟨.more (isReference_of_read? h hread) hkind hmore.isList hne,
    fun refs' rest hlist => ?_, fun refs' rest hlist => ?_⟩
  · rcases hlist.cases_of_read? h hread with hless | ⟨-, rfl⟩ | ⟨_, refs, hcomma', hrest, -, rfl⟩
    · exact .inr (hlt.trans hless.2)
    · exact .inr hlt
    · cases hcomma.symm.trans hcomma'
      refine (hmore.eq_or_lt refs rest hrest).imp_left ?_
      rintro ⟨rfl, rfl⟩
      exact ⟨rfl, rfl⟩
  · rcases hlist.cases_of_read? h hread with hless | ⟨rfl, -⟩ | ⟨_, refs, hcomma', hrest, -, rfl⟩
    · exact hless.1.trans (Nat.le_add_left 1 _)
    · exact Nat.le_add_left 1 _
    · cases hcomma.symm.trans hcomma'
      exact Nat.succ_le_succ (hmore.length_le refs rest hrest)

end IsGreedy

/-- The list that is read takes as much as it can. -/
lemma exists_isGreedy (h : Clear tokens) : ∃ left, IsGreedy tokens (readList tokens).1 left := by
  fun_induction readList tokens with
  | case1 tokens hread => exact ⟨tokens, .of_none h hread⟩
  | case2 tokens r left hread hcomma =>
      refine ⟨left, .of_end h hread fun more refs rest hmore => ?_⟩
      cases hcomma.symm.trans hmore
  | case3 tokens r after hread more hcomma others last hothers ih =>
      have hafter : Clear after := h.suffix (suffix_of_read? hread)
      obtain ⟨left, hgreedy⟩ := ih (hafter.suffix (suffix_of_skipComma? hcomma))
      rw [hothers] at hgreedy
      by_cases hnone : others = []
      · -- no reference comes after the comma, so the list ends before it
        subst hnone
        refine ⟨after, .of_end h hread fun more' refs rest hcomma' hlist => ?_⟩
        cases hcomma.symm.trans hcomma'
        exact List.length_eq_zero_iff.mp (Nat.le_zero.mp (hgreedy.length_le refs rest hlist))
      · exact ⟨left, .of_more h hread hcomma hgreedy hnone⟩

/-- The list that is read is the longest one. -/
lemma isLongest_iff {refs : List TableReference} :
    IsLongest (significant tokens) refs ↔ (readList tokens).1 = refs := by
  have hsame : (readList (significant tokens)).1 = (readList tokens).1 := by
    rw [readList_significant]
  obtain ⟨left, hgreedy⟩ := exists_isGreedy (clear_significant tokens)
  rw [hsame] at hgreedy
  constructor
  · rintro ⟨rest, hrest, hlongest⟩
    rcases hgreedy.eq_or_lt refs rest hrest with ⟨rfl, -⟩ | hlt
    · rfl
    · exact absurd (hlongest _ left hgreedy.isList).1 (Nat.not_le_of_lt hlt)
  · rintro rfl
    refine ⟨left, hgreedy.isList, fun refs' rest hlist => ⟨?_, hgreedy.length_le refs' rest hlist⟩⟩
    rcases hgreedy.eq_or_lt refs' rest hlist with ⟨-, rfl⟩ | hlt
    · exact le_rfl
    · exact hlt.le

/-! ### The references of a query -/

/-- The tokens after each `FROM` and `JOIN`, in order. -/
def openings : List Token → List (List Token)
  | [] => []
  | t :: rest =>
    if t.kind = .keyword .FROM ∨ t.kind = .keyword .JOIN then rest :: openings rest
    else openings rest

/-- **The references of a query by their grammar.** They are the references of the lists that are
read after every `FROM` and `JOIN`, one list for each of them in their order, as if nothing else had
been read; and a list that is read is the longest one that the grammar has there, when blanks and
comments are left out. -/
theorem extract_eq_flatMap (tokens : List Token) :
    extract tokens = (openings tokens).flatMap (fun after => (readList after).1) ∧
      ∀ after refs, IsLongest (significant after) refs ↔ (readList after).1 = refs := by
  refine ⟨?_, fun after refs => isLongest_iff⟩
  induction tokens with
  | nil => rw [extract, openings, List.flatMap_nil]
  | cons t rest ih =>
      have hkind : (t.isKeyword .FROM || t.isKeyword .JOIN) = true ↔
          t.kind = .keyword .FROM ∨ t.kind = .keyword .JOIN := by simp [Token.isKeyword]
      rw [extract_cons, openings]
      split_ifs with h h' h'
      · calc
          upcoming rest = (readList rest).1 ++ extract rest := upcoming_eq rest
          _ = (rest :: openings rest).flatMap fun after => (readList after).1 := by
            rw [ih, List.flatMap_cons]
      · exact absurd (hkind.mp h) h'
      · exact absurd (hkind.mpr h') h
      · exact ih

end SqlCompletion.TableReference
