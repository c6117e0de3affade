import SqlCompletion.Token

/-!
References to tables, `[database.]table [[AS] alias]`, and how one is read from tokens.

Blanks and comments between the tokens are passed over. A name followed by a dot without a name
after it is no reference, and an `AS` without a name after it gives no alias.

* `TableReference`: what is known about one occurrence;
* `TableReference.read?`: one reference at the front of the tokens;
* `TableReference.readList`: the longest list of references, with commas between them.
-/

namespace SqlCompletion

/-- One occurrence of a table in a query. -/
structure TableReference where
  database : Option String
  table : String
  /-- The alias written after the name. -/
  aliasName : Option String
  /-- The byte offset at which an alias may be appended; none where one is written. -/
  aliasPlace : Option Nat
  /-- The byte offset just past the table's name. -/
  nameEnd : Nat
  deriving DecidableEq, Repr

/-- The tokens from the first that is not trivia. -/
def skipTrivia (tokens : List Token) : List Token :=
  tokens.dropWhile Token.isTrivia

/-- An identifier at the front of the tokens, and the tokens after it. -/
def readIdentifier? (tokens : List Token) : Option (Token × List Token) :=
  match skipTrivia tokens with
  | t :: rest => if t.kind = .identifier then some (t, rest) else none
  | [] => none

namespace TableReference

/-- The name by which expressions address the table. -/
def qualifier (r : TableReference) : String :=
  r.aliasName.getD r.table

/-- A name with or without a database, and the tokens after it. -/
def readName? (tokens : List Token) : Option ((Option Token × Token) × List Token) :=
  match readIdentifier? tokens with
  | none => none
  | some (first, rest) =>
    match skipTrivia rest with
    | [] => some ((none, first), rest)
    | t :: more =>
      if t.kind = .dot then
        match readIdentifier? more with
        | none => none
        | some (second, rest) => some ((some first, second), rest)
      else some ((none, first), rest)

/-- The tokens after an `AS`, if one is next. -/
def skipAs (tokens : List Token) : List Token :=
  match skipTrivia tokens with
  | t :: rest => if t.isKeyword .AS then rest else tokens
  | [] => tokens

/-- The alias after a name, if one is written, and the tokens after it. -/
def readAlias (tokens : List Token) : Option String × List Token :=
  match readIdentifier? (skipAs tokens) with
  | some (t, rest) => (some t.value, rest)
  | none => (none, skipAs tokens)

/-- The reference with the given name and alias. -/
def ofParts (database : Option Token) (table : Token) (aliasName : Option String) :
    TableReference where
  database := database.map Token.value
  table := table.value
  aliasName := aliasName
  aliasPlace := if aliasName.isSome then none else some table.stop
  nameEnd := table.stop

/-- A reference at the front of the tokens, and the tokens after it. -/
def read? (tokens : List Token) : Option (TableReference × List Token) :=
  match readName? tokens with
  | none => none
  | some ((database, table), rest) =>
    let (aliasName, rest) := readAlias rest
    some (ofParts database table aliasName, rest)

/-! ### Reading takes tokens -/

theorem length_skipTrivia_le (tokens : List Token) : (skipTrivia tokens).length ≤ tokens.length :=
  (List.dropWhile_suffix _).length_le

theorem length_readIdentifier?_lt {tokens rest : List Token} {t : Token}
    (h : readIdentifier? tokens = some (t, rest)) : rest.length < tokens.length := by
  have hle := length_skipTrivia_le tokens
  unfold readIdentifier? at h
  split at h
  · rename_i heq
    rw [heq, List.length_cons] at hle
    split at h
    · cases h
      omega
    · cases h
  · cases h

theorem length_readName?_lt {tokens rest : List Token} {name : Option Token × Token}
    (h : readName? tokens = some (name, rest)) : rest.length < tokens.length := by
  unfold readName? at h
  split at h
  · simp at h
  · rename_i first rest₁ h₁
    have h₁ := length_readIdentifier?_lt h₁
    have h₂ := length_skipTrivia_le rest₁
    split at h
    · simp_all
    · split at h
      · split at h
        · simp at h
        · rename_i h₃
          have h₃ := length_readIdentifier?_lt h₃
          simp_all
          omega
      · simp_all

theorem length_skipAs_le (tokens : List Token) : (skipAs tokens).length ≤ tokens.length := by
  have := length_skipTrivia_le tokens
  unfold skipAs
  split
  · split <;> simp_all
    omega
  · exact Nat.le_refl _

theorem length_readAlias_le (tokens : List Token) :
    (readAlias tokens).2.length ≤ tokens.length := by
  have := length_skipAs_le tokens
  unfold readAlias
  split
  · rename_i h
    have := length_readIdentifier?_lt h
    simp
    omega
  · simpa using this

/-- A reference takes at least one token. -/
theorem length_read?_lt {tokens rest : List Token} {r : TableReference}
    (h : read? tokens = some (r, rest)) : rest.length < tokens.length := by
  unfold read? at h
  split at h
  · simp at h
  · rename_i rest₁ h₁
    have h₁ := length_readName?_lt h₁
    have h₂ := length_readAlias_le rest₁
    simp only [Option.some.injEq, Prod.mk.injEq] at h
    rw [← h.2]
    omega

/-! ### Lists of references -/

/-- The tokens after a comma, if one is next. -/
def skipComma? (tokens : List Token) : Option (List Token) :=
  match skipTrivia tokens with
  | t :: rest => if t.kind = .comma then some rest else none
  | [] => none

theorem length_skipComma?_lt {tokens rest : List Token} (h : skipComma? tokens = some rest) :
    rest.length < tokens.length := by
  have hle := length_skipTrivia_le tokens
  unfold skipComma? at h
  split at h
  · rename_i heq
    rw [heq, List.length_cons] at hle
    split at h
    · cases h
      omega
    · cases h
  · cases h

/-- The longest list of references at the front of the tokens, and the tokens after it. A comma
is taken along even when no reference follows it. -/
def readList (tokens : List Token) : List TableReference × List Token :=
  match _h : read? tokens with
  | none => ([], tokens)
  | some (r, rest) =>
    match _h' : skipComma? rest with
    | none => ([r], rest)
    | some more =>
      let (others, after) := readList more
      (r :: others, after)
termination_by tokens.length
decreasing_by
  have := length_read?_lt _h
  have := length_skipComma?_lt _h'
  omega

theorem length_readList_le (tokens : List Token) : (readList tokens).2.length ≤ tokens.length := by
  fun_induction readList tokens with
  | case1 => exact Nat.le_refl _
  | case2 _ _ _ h => exact Nat.le_of_lt (length_read?_lt h)
  | case3 _ _ _ h _ h' _ _ _ ih =>
    have := length_read?_lt h
    have := length_skipComma?_lt h'
    simp_all
    omega

end TableReference

end SqlCompletion
