import SqlCompletion.Proofs.TableReference.Places
import SqlCompletion.Token.Lexer

/-!
A statement is read by itself: what stands beyond the separators around it is out of reach.

* `TableReference.IsOver`: where a statement is over, because nothing comes next or a separator;
* `TableReference.skipTrivia_append_cases`: a reader that looks for the next token finds it in the
  statement, or stops where the statement is over;
* `TableReference.read?_append`: so a reference is read in the same way whatever follows the
  statement;
* `TableReference.targetBefore?_append`: and the search for a target does not leave the statement;
* `TableReference.target?_statement`: the target of a place is that of its statement alone.
-/

namespace SqlCompletion.TableReference

/-- A statement is over before these tokens: there are none, or the first is a separator. -/
def IsOver (tokens : List Token) : Prop :=
  ∀ t ∈ tokens.head?, isSeparator t = true

instance : DecidablePred IsOver := fun tokens =>
  inferInstanceAs (Decidable (∀ t ∈ tokens.head?, isSeparator t = true))

variable {after : List Token}

lemma kind_of_isSeparator {t : Token} (h : isSeparator t = true) : t.kind = .unknown := by
  simp only [isSeparator, Bool.and_eq_true, decide_eq_true_eq] at h
  exact h.1

lemma isTrivia_of_isSeparator {t : Token} (h : isSeparator t = true) : t.isTrivia = false := by
  rw [Token.isTrivia, kind_of_isSeparator h]
  rfl

/-! ### Reading forward -/

lemma IsOver.skipTrivia_eq (h : IsOver after) : skipTrivia after = after := by
  cases after with
  | nil => rfl
  | cons t rest =>
      exact List.dropWhile_cons_of_neg (by simp [isTrivia_of_isSeparator (h t rfl)])

/-- The next token that is not trivia stands in the statement, or the statement is over. -/
lemma skipTrivia_append_cases (h : IsOver after) (tokens : List Token) :
    (skipTrivia tokens = [] ∧ skipTrivia (tokens ++ after) = after) ∨
      ∃ t rest, skipTrivia tokens = t :: rest ∧
        skipTrivia (tokens ++ after) = t :: (rest ++ after) := by
  have happend := @List.dropWhile_append Token Token.isTrivia tokens after
  cases hskip : skipTrivia tokens with
  | nil =>
      refine .inl ⟨rfl, ?_⟩
      rw [skipTrivia] at hskip
      rw [skipTrivia, happend, hskip]
      exact h.skipTrivia_eq
  | cons t rest =>
      refine .inr ⟨t, rest, rfl, ?_⟩
      rw [skipTrivia] at hskip
      rw [skipTrivia, happend, hskip]
      rfl

/-- Where a statement is over, a reader that wants a token of another kind finds none. -/
lemma IsOver.ne_kind (h : IsOver after) {t : Token} {rest : List Token} (heq : after = t :: rest)
    {kind : TokenKind} (hkind : kind ≠ .unknown) : t.kind ≠ kind := by
  rw [kind_of_isSeparator (h t (by rw [heq]; rfl))]
  exact hkind.symm

lemma readIdentifier?_append (h : IsOver after) (tokens : List Token) :
    readIdentifier? (tokens ++ after) =
      (readIdentifier? tokens).map fun read => (read.1, read.2 ++ after) := by
  rcases skipTrivia_append_cases h tokens with ⟨hskip, hskip'⟩ | ⟨t, rest, hskip, hskip'⟩
  · rw [readIdentifier?, readIdentifier?, hskip, hskip']
    cases hafter : after with
    | nil => rfl
    | cons t rest => exact if_neg (h.ne_kind hafter (by simp))
  · rw [readIdentifier?, readIdentifier?, hskip, hskip']
    by_cases ht : t.kind = .identifier <;> simp [ht]

lemma readName?_append (h : IsOver after) (tokens : List Token) :
    readName? (tokens ++ after) =
      (readName? tokens).map fun read => (read.1, read.2 ++ after) := by
  rw [readName?, readName?, readIdentifier?_append h]
  cases readIdentifier? tokens with
  | none => rfl
  | some first =>
      rcases skipTrivia_append_cases h first.2 with ⟨hskip, hskip'⟩ | ⟨t, rest, hskip, hskip'⟩
      · simp only [Option.map_some, hskip, hskip']
        cases hafter : after with
        | nil => rfl
        | cons t rest => exact if_neg (h.ne_kind hafter (by simp))
      · simp only [Option.map_some, hskip, hskip', readIdentifier?_append h]
        by_cases ht : t.kind = .dot
        · cases readIdentifier? rest <;> simp [ht]
        · simp [ht]

lemma skipAs_append (h : IsOver after) (tokens : List Token) :
    skipAs (tokens ++ after) = skipAs tokens ++ after := by
  rcases skipTrivia_append_cases h tokens with ⟨hskip, hskip'⟩ | ⟨t, rest, hskip, hskip'⟩
  · have hsame : skipAs tokens = tokens := by rw [skipAs, hskip]
    rw [hsame, skipAs, hskip']
    cases hafter : after with
    | nil => rfl
    | cons t rest =>
        have hne : t.kind ≠ .keyword .AS := h.ne_kind hafter (by simp)
        simp [Token.isKeyword, hne]
  · rw [skipAs, skipAs, hskip, hskip']
    by_cases ht : t.isKeyword .AS <;> simp [ht]

lemma readAlias_append (h : IsOver after) (tokens : List Token) :
    readAlias (tokens ++ after) = ((readAlias tokens).1, (readAlias tokens).2 ++ after) := by
  rw [readAlias, readAlias, skipAs_append h, readIdentifier?_append h]
  cases readIdentifier? (skipAs tokens) <;> rfl

/-- A reference is read in the same way whatever follows the statement. -/
lemma read?_append (h : IsOver after) (tokens : List Token) :
    read? (tokens ++ after) = (read? tokens).map fun read => (read.1, read.2 ++ after) := by
  rw [read?, read?, readName?_append h]
  cases readName? tokens with
  | none => rfl
  | some name => simp only [Option.map_some, readAlias_append h]

/-! ### Looking back -/

/-- The keyword before a place stands in the statement, or there is none. The tokens are given from
the last to the first. -/
lemma lastKeyword?_append (h : IsOver after) (earlier : List Token) :
    lastKeyword? (earlier ++ after) = lastKeyword? earlier := by
  rw [lastKeyword?, lastKeyword?, List.find?_append]
  cases earlier.find? fun t => !t.isTrivia with
  | some t => rfl
  | none =>
      cases hafter : after with
      | nil => rfl
      | cons t rest =>
          have ht : isSeparator t = true := h t (by rw [hafter]; rfl)
          rw [List.find?_cons_of_pos (by simp [isTrivia_of_isSeparator ht])]
          simp [kind_of_isSeparator ht, TokenKind.keyword?]

/-- The search for a target does not leave the statement, neither behind its start nor beyond its
end. -/
lemma targetBefore?_append {before : List Token} (hbefore : IsOver before) (hafter : IsOver after)
    (earlier later : List Token) :
    targetBefore? (earlier ++ before) (later ++ after) = targetBefore? earlier later := by
  induction earlier generalizing later with
  | nil =>
      cases before with
      | nil => rfl
      | cons t rest => exact if_pos (hbefore t rfl)
  | cons t earlier ih =>
      have hrest := ih (t :: later)
      rw [List.cons_append] at hrest ⊢
      rw [targetBefore?, targetBefore?, lastKeyword?_append hbefore, read?_append hafter,
        Option.map_map, hrest]
      rfl

/-- A target is read after an `UPDATE` or an `INSERT INTO` among the tokens before the place. -/
lemma exists_of_targetBefore? {earlier later : List Token} {r : TableReference}
    (h : targetBefore? earlier later = some r) :
    ∃ between t first rest, earlier = between ++ t :: first ∧
      (t.isKeyword .UPDATE = true ∨
        t.isKeyword .INTO = true ∧ lastKeyword? first = some .INSERT) ∧
      read? (between.reverse ++ later) = some (r, rest) := by
  induction earlier generalizing later with
  | nil => cases h
  | cons t earlier ih =>
      rw [targetBefore?] at h
      split_ifs at h with hseparator hopens
      · obtain ⟨⟨r', rest⟩, hread, rfl⟩ := Option.map_eq_some_iff.mp h
        exact ⟨[], t, earlier, rest, rfl, by simpa using hopens, hread⟩
      · obtain ⟨between, t', first, rest, rfl, hopens', hread⟩ := ih h
        refine ⟨t :: between, t', first, rest, rfl, hopens', ?_⟩
        rwa [List.reverse_cons, List.append_assoc]

/-- **A statement is read by itself.** Let a statement stand between two separators, or begin or end
with the query. Then the target at a place in it is the target at this place in the statement alone,
whatever stands before and after. It is read in the statement, after an `UPDATE` or an `INSERT INTO`
of the statement that does not come after the place. -/
theorem target?_statement {before statement after : List Token} {index : ℕ}
    (hbefore : IsOver before.reverse) (hafter : IsOver after) (hindex : index < statement.length) :
    target? (before ++ (statement ++ after)) (before.length + index) = target? statement index ∧
      ∀ r ∈ target? statement index, ∃ first t more rest, statement = first ++ t :: more ∧
        first.length ≤ index ∧
        (t.isKeyword .UPDATE = true ∨
          t.isKeyword .INTO = true ∧ lastKeyword? first.reverse = some .INSERT) ∧
        read? more = some (r, rest) := by
  constructor
  · have hplace : before.length + index + 1 = before.length + (index + 1) := by omega
    rw [target?, target?, hplace, List.take_length_add_append, List.drop_length_add_append,
      List.take_append_of_le_length hindex, List.drop_append_of_le_length hindex,
      List.reverse_append]
    exact targetBefore?_append hbefore hafter _ _
  · intro r hr
    obtain ⟨between, t, first, rest, hsplit, hopens, hread⟩ := exists_of_targetBefore? hr
    have htake : statement.take (index + 1) = first.reverse ++ t :: between.reverse := by
      rw [← List.reverse_reverse (statement.take (index + 1)), hsplit]
      simp
    refine ⟨first.reverse, t, between.reverse ++ statement.drop (index + 1), rest, ?_, ?_, ?_,
      hread⟩
    · rw [← List.cons_append, ← List.append_assoc, ← htake, List.take_append_drop]
    · have hlength := congrArg List.length htake
      rw [List.length_take, List.length_append, List.length_cons] at hlength
      omega
    · rwa [List.reverse_reverse]

/-- A dangling `AS` at the end of a statement, with another update before it and a name after it. -/
theorem target?_statement_dangling :
    let before := tokenize "UPDATE a;"
    let statement := tokenize "/* ; */ INSERT INTO b AS "
    let after := tokenize ";c"
    IsOver before.reverse ∧ IsOver after ∧ 8 < statement.length ∧
      target? (before ++ (statement ++ after)) (before.length + 8) = target? statement 8 ∧
      target? statement 8 = some ⟨none, "b", none, some 21, 21⟩ := by
  intro before statement after
  have hbefore : IsOver before.reverse := by decide +kernel
  have hafter : IsOver after := by decide +kernel
  have hindex : 8 < statement.length := by decide +kernel
  exact ⟨hbefore, hafter, hindex, (target?_statement hbefore hafter hindex).1, by decide +kernel⟩

end SqlCompletion.TableReference
