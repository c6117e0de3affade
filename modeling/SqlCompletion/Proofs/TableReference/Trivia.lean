import SqlCompletion.Proofs.TableReference.Places

/-!
Blanks and comments are invisible to all readers of tokens.

* `significant`: the tokens that are neither blanks nor comments;
* `skipTrivia_cases`: the next token that a reader looks at is the next significant one;
* `TableReference.read?_significant`, `TableReference.extract_significant`: the references are the
  same without trivia;
* `Clause.nearest_significant`, `TableReference.targetBefore?_significant`: and so are the clause
  and the target of a place;
* `significantIndex?`: where the last significant token up to an index stands among the significant
  ones;
* `extract_atIndex_target?_significant`: all of it for the tokens of a query.
-/

namespace SqlCompletion

/-- The tokens that are neither blanks nor comments. -/
def significant (tokens : List Token) : List Token :=
  tokens.filter fun t => !t.isTrivia

lemma significant_append (tokens more : List Token) :
    significant (tokens ++ more) = significant tokens ++ significant more :=
  List.filter_append ..

lemma significant_reverse (tokens : List Token) :
    significant tokens.reverse = (significant tokens).reverse :=
  List.filter_reverse ..

/-! ### One significant token -/

lemma significant_cons_of_isTrivia {t : Token} (h : t.isTrivia = true) (tokens : List Token) :
    significant (t :: tokens) = significant tokens := by
  simp [significant, h]

lemma significant_cons {t : Token} (h : t.isTrivia = false) (tokens : List Token) :
    significant (t :: tokens) = t :: significant tokens := by
  simp [significant, h]

/-- The next token that is not trivia is the next significant one. -/
lemma skipTrivia_cases (tokens : List Token) :
    (skipTrivia tokens = [] ∧ significant tokens = []) ∨
      ∃ t rest, skipTrivia tokens = t :: rest ∧ significant tokens = t :: significant rest ∧
        skipTrivia (significant tokens) = t :: significant rest := by
  induction tokens with
  | nil => exact .inl ⟨rfl, rfl⟩
  | cons t tokens ih =>
      cases ht : t.isTrivia with
      | true =>
          have hskip : skipTrivia (t :: tokens) = skipTrivia tokens :=
            List.dropWhile_cons_of_pos ht
          rwa [hskip, significant_cons_of_isTrivia ht]
      | false =>
          have hskip : ∀ rest, skipTrivia (t :: rest) = t :: rest := fun rest =>
            List.dropWhile_cons_of_neg (by simp [ht])
          rw [significant_cons ht]
          exact .inr ⟨t, tokens, hskip _, rfl, hskip _⟩

lemma Token.kind_of_isTrivia {t : Token} (h : t.isTrivia = true) :
    t.kind = .whitespace ∨ t.kind = .comment := by
  cases hkind : t.kind <;> simp_all [Token.isTrivia, TokenKind.isTrivia]

lemma Token.isKeyword_of_isTrivia {t : Token} (h : t.isTrivia = true) (k : Keyword) :
    t.isKeyword k = false := by
  rcases t.kind_of_isTrivia h with hkind | hkind <;> simp [Token.isKeyword, hkind]

/-! ### References -/

/-- An identifier is read without trivia as with it. -/
lemma readIdentifier?_significant (tokens : List Token) :
    readIdentifier? (significant tokens) =
      (readIdentifier? tokens).map fun read => (read.1, significant read.2) := by
  rcases skipTrivia_cases tokens with ⟨hskip, hnil⟩ | ⟨t, rest, hskip, -, hskip'⟩
  · rw [readIdentifier?, readIdentifier?, hskip, hnil]
    rfl
  · rw [readIdentifier?, readIdentifier?, hskip, hskip']
    by_cases ht : t.kind = .identifier <;> simp [ht]

/-- The keyword before a place is the same without trivia. -/
lemma lastKeyword?_significant (earlier : List Token) :
    lastKeyword? (significant earlier) = lastKeyword? earlier := by
  simp [lastKeyword?, significant, List.find?_filter]

namespace TableReference

lemma readName?_significant (tokens : List Token) :
    readName? (significant tokens) =
      (readName? tokens).map fun read => (read.1, significant read.2) := by
  rw [readName?, readName?, readIdentifier?_significant]
  cases readIdentifier? tokens with
  | none => rfl
  | some first =>
      rcases skipTrivia_cases first.2 with ⟨hskip, hnil⟩ | ⟨t, rest, hskip, -, hskip'⟩
      · simp only [Option.map_some, hskip, hnil]
        rfl
      · simp only [Option.map_some, hskip, hskip', readIdentifier?_significant]
        by_cases ht : t.kind = .dot
        · cases readIdentifier? rest <;> simp [ht]
        · simp [ht]

lemma skipAs_significant (tokens : List Token) :
    skipAs (significant tokens) = significant (skipAs tokens) := by
  rcases skipTrivia_cases tokens with ⟨hskip, hnil⟩ | ⟨t, rest, hskip, -, hskip'⟩
  · have hsame : skipAs tokens = tokens := by rw [skipAs, hskip]
    rw [hsame, hnil]
    rfl
  · rw [skipAs, skipAs, hskip, hskip']
    by_cases ht : t.isKeyword .AS <;> simp [ht]

lemma readAlias_significant (tokens : List Token) :
    readAlias (significant tokens) = ((readAlias tokens).1, significant (readAlias tokens).2) := by
  rw [readAlias, readAlias, skipAs_significant, readIdentifier?_significant]
  cases readIdentifier? (skipAs tokens) <;> rfl

/-- One reference is read without trivia as with it. -/
lemma read?_significant (tokens : List Token) :
    read? (significant tokens) = (read? tokens).map fun read => (read.1, significant read.2) := by
  rw [read?, read?, readName?_significant]
  cases readName? tokens with
  | none => rfl
  | some name => simp only [Option.map_some, readAlias_significant]

lemma skipComma?_significant (tokens : List Token) :
    skipComma? (significant tokens) = (skipComma? tokens).map significant := by
  rcases skipTrivia_cases tokens with ⟨hskip, hnil⟩ | ⟨t, rest, hskip, -, hskip'⟩
  · rw [skipComma?, skipComma?, hskip, hnil]
    rfl
  · rw [skipComma?, skipComma?, hskip, hskip']
    by_cases ht : t.kind = .comma <;> simp [ht]

/-- A list of references is read without trivia as with it. -/
lemma readList_significant (tokens : List Token) :
    readList (significant tokens) = ((readList tokens).1, significant (readList tokens).2) := by
  fun_induction readList tokens with
  | case1 tokens hread =>
      rw [readList_of_none (by rw [read?_significant, hread, Option.map_none])]
  | case2 tokens r rest hread hcomma =>
      rw [readList_of_end (by rw [read?_significant, hread, Option.map_some])
        (by rw [skipComma?_significant, hcomma, Option.map_none])]
  | case3 tokens r rest hread more hcomma others after hmore ih =>
      rw [readList_of_comma (by rw [read?_significant, hread, Option.map_some])
        (by rw [skipComma?_significant, hcomma, Option.map_some]), ih, hmore]

/-- The references of a query are the same without trivia. -/
lemma extract_significant (tokens : List Token) :
    extract (significant tokens) = extract tokens := by
  induction tokens with
  | nil => rfl
  | cons t rest ih =>
      cases htrivia : t.isTrivia with
      | true =>
          rw [significant_cons_of_isTrivia htrivia, extract_cons, t.isKeyword_of_isTrivia htrivia,
            t.isKeyword_of_isTrivia htrivia, ih]
          rfl
      | false =>
          have hupcoming : upcoming (significant rest) = upcoming rest := by
            rw [upcoming_eq, upcoming_eq, readList_significant, ih]
          rw [significant_cons htrivia, extract_cons, extract_cons, hupcoming, ih]

/-- Trivia separate no statements. -/
lemma isSeparator_of_isTrivia {t : Token} (h : t.isTrivia = true) : isSeparator t = false := by
  rcases t.kind_of_isTrivia h with hkind | hkind <;> simp [isSeparator, hkind]

/-- The target of a place is the same without trivia. -/
lemma targetBefore?_significant (before after : List Token) :
    targetBefore? (significant before) (significant after) = targetBefore? before after := by
  induction before generalizing after with
  | nil => rfl
  | cons t earlier ih =>
      have hrest := ih (t :: after)
      cases htrivia : t.isTrivia with
      | true =>
          rw [significant_cons_of_isTrivia htrivia] at hrest ⊢
          rw [targetBefore?, isSeparator_of_isTrivia htrivia, t.isKeyword_of_isTrivia htrivia,
            t.isKeyword_of_isTrivia htrivia, hrest]
          rfl
      | false =>
          rw [significant_cons htrivia] at hrest ⊢
          rw [targetBefore?, targetBefore?, lastKeyword?_significant, read?_significant,
            Option.map_map, hrest]
          rfl

end TableReference

/-! ### Clauses -/

/-- The clause of a place is the same without trivia. -/
lemma Clause.nearest_significant (before : List Token) :
    Clause.nearest (significant before) = Clause.nearest before := by
  induction before with
  | nil => rfl
  | cons t earlier ih =>
      cases htrivia : t.isTrivia with
      | true =>
          have hkeyword : t.kind.keyword? = none := by
            rcases t.kind_of_isTrivia htrivia with hkind | hkind <;> rw [hkind] <;> rfl
          rw [significant_cons_of_isTrivia htrivia, Clause.nearest, hkeyword, ih]
          rfl
      | false =>
          rw [significant_cons htrivia, Clause.nearest, Clause.nearest, lastKeyword?_significant,
            ih]

/-! ### Indices -/

/-- Where the last significant token up to an index stands among the significant tokens; nowhere
when there is none. -/
def significantIndex? (tokens : List Token) (index : ℕ) : Option ℕ :=
  match (significant (tokens.take (index + 1))).length with
  | 0 => none
  | n + 1 => some n

section Indices

variable {tokens : List Token} {index place : ℕ}

lemma significant_take_eq_nil (h : significantIndex? tokens index = none) :
    significant (tokens.take (index + 1)) = [] := by
  rw [significantIndex?] at h
  split at h
  · rename_i hlength
    exact List.length_eq_zero_iff.mp hlength
  · cases h

lemma length_significant_take (h : significantIndex? tokens index = some place) :
    (significant (tokens.take (index + 1))).length = place + 1 := by
  rw [significantIndex?] at h
  split at h
  · cases h
  · rename_i hlength
    rw [hlength, Option.some.inj h]

/-- The significant tokens are cut at the place where the tokens are cut at the index. -/
lemma significant_cut (h : significantIndex? tokens index = some place) :
    (significant tokens).take (place + 1) = significant (tokens.take (index + 1)) ∧
      (significant tokens).drop (place + 1) = significant (tokens.drop (index + 1)) := by
  have hsplit : significant tokens =
      significant (tokens.take (index + 1)) ++ significant (tokens.drop (index + 1)) := by
    rw [← significant_append, List.take_append_drop]
  rw [hsplit, ← length_significant_take h, List.take_left, List.drop_left]
  exact ⟨rfl, rfl⟩

/-- The token at the place is the last one up to the index that is not trivia. -/
lemma getElem?_significant_place (h : significantIndex? tokens index = some place) :
    (significant tokens)[place]? =
      (tokens.take (index + 1)).reverse.find? fun t => !t.isTrivia := by
  calc
    (significant tokens)[place]? = ((significant tokens).take (place + 1))[place]? :=
      (List.getElem?_take_of_lt (Nat.lt_succ_self place)).symm
    _ = (significant (tokens.take (index + 1)))[place]? := by
      rw [(significant_cut h).1]
    _ = (significant (tokens.take (index + 1))).getLast? := by
      rw [List.getLast?_eq_getElem?, length_significant_take h, Nat.add_sub_cancel]
    _ = (tokens.take (index + 1)).reverse.find? fun t => !t.isTrivia := by
      rw [← List.head?_reverse, ← significant_reverse, significant, List.head?_filter]

lemma atIndex_significant_place (h : significantIndex? tokens index = some place) :
    Clause.atIndex (significant tokens) place = Clause.atIndex tokens index := by
  rw [Clause.atIndex, Clause.atIndex, (significant_cut h).1, ← significant_reverse]
  exact Clause.nearest_significant _

lemma target?_significant_place (h : significantIndex? tokens index = some place) :
    TableReference.target? (significant tokens) place = TableReference.target? tokens index := by
  obtain ⟨htake, hdrop⟩ := significant_cut h
  rw [TableReference.target?, TableReference.target?, htake, hdrop, ← significant_reverse]
  exact TableReference.targetBefore?_significant _ _

lemma atIndex_eq_unknown (h : significantIndex? tokens index = none) :
    Clause.atIndex tokens index = .UNKNOWN := by
  rw [Clause.atIndex, ← Clause.nearest_significant, significant_reverse,
    significant_take_eq_nil h]
  rfl

lemma target?_eq_none (h : significantIndex? tokens index = none) :
    TableReference.target? tokens index = none := by
  rw [TableReference.target?, ← TableReference.targetBefore?_significant, significant_reverse,
    significant_take_eq_nil h]
  rfl

end Indices

/-- **Blanks and comments are invisible.** Without them the references of a query are the same, with
the same offsets, and the clause and the target at an index are those at the place of the last
significant token up to this index. Where there is no such token, the clause is unknown and there is
no target. -/
theorem extract_atIndex_target?_significant (tokens : List Token) :
    TableReference.extract (significant tokens) = TableReference.extract tokens ∧
      ∀ index : ℕ,
        match significantIndex? tokens index with
        | some place =>
          (significant tokens)[place]? =
              (tokens.take (index + 1)).reverse.find? (fun t => !t.isTrivia) ∧
            Clause.atIndex (significant tokens) place = Clause.atIndex tokens index ∧
            TableReference.target? (significant tokens) place = TableReference.target? tokens index
        | none =>
          (∀ t ∈ tokens.take (index + 1), t.isTrivia = true) ∧
            Clause.atIndex tokens index = .UNKNOWN ∧
              TableReference.target? tokens index = none := by
  refine ⟨TableReference.extract_significant tokens, fun index => ?_⟩
  cases h : significantIndex? tokens index with
  | some place =>
      exact ⟨getElem?_significant_place h, atIndex_significant_place h,
        target?_significant_place h⟩
  | none =>
      have htrivia : ∀ t ∈ tokens.take (index + 1), t.isTrivia = true := by
        simpa [significant] using significant_take_eq_nil h
      exact ⟨htrivia, atIndex_eq_unknown h, target?_eq_none h⟩

end SqlCompletion
