import Mathlib.Data.List.Induction
import SqlCompletion.Clause

/-!
The clause of a place, found while the tokens are read from the first on.

The clause is defined by looking backwards for the nearest keyword that names one, and from `BY` and
`INTO` further back for the word they belong to. One pass forwards finds the same.

* `ClauseReading`: what is kept of the tokens read so far, the clause in force and the last token
  that is not trivia;
* `ClauseReading.read`: what one more token makes of it;
* `ClauseReading.SumsUp`: it is what looking backwards over these tokens would find, an invariant
  kept by every token (`SumsUp.read`);
* `Clause.atIndex_eq_foldl`: the clause at a token is the one in force once it has been read.
-/

namespace SqlCompletion

/-- What is kept of tokens that are read in order. -/
structure ClauseReading where
  /-- The clause in force. -/
  clause : Clause := .UNKNOWN
  /-- The last token that is not trivia. -/
  last? : Option Token := none
  deriving DecidableEq, Repr

namespace ClauseReading

variable {reading : ClauseReading} {tokens : List Token}

/-- The last token that is not trivia is the given keyword. -/
def follows (reading : ClauseReading) (k : Keyword) : Bool :=
  reading.last?.any (·.isKeyword k)

/-- The clause in force after a keyword. `BY` and `INTO` change it only right after the words they
belong to, and a keyword that names no clause does not. -/
def clauseAfter (reading : ClauseReading) : Keyword → Clause
  | .BY =>
    if reading.follows .GROUP then .GROUP_BY
    else if reading.follows .ORDER then .ORDER_BY
    else reading.clause
  | .INTO => if reading.follows .INSERT then .INSERT else reading.clause
  | k => (Clause.ofKeyword? k).getD reading.clause

/-- One more token is read. -/
def read (reading : ClauseReading) (t : Token) : ClauseReading where
  clause :=
    match t.kind.keyword? with
    | some k => reading.clauseAfter k
    | none => reading.clause
  last? := if t.isTrivia then reading.last? else some t

/-! ### Looking backwards -/

/-- The reading is what looking backwards over the tokens finds. -/
structure SumsUp (reading : ClauseReading) (tokens : List Token) : Prop where
  clause : reading.clause = Clause.nearest tokens.reverse
  last? : reading.last? = tokens.reverse.find? fun t => !t.isTrivia

/-- The keyword that the reading follows is the one that looking backwards comes to first. -/
lemma SumsUp.follows_iff (h : reading.SumsUp tokens) (k : Keyword) :
    reading.follows k ↔ lastKeyword? tokens.reverse = some k := by
  rw [follows, lastKeyword?, ← h.last?]
  cases reading.last? with
  | none => simp
  | some t => cases hkind : t.kind <;> simp [Token.isKeyword, TokenKind.keyword?, hkind]

/-- A keyword has the same effect in both directions. -/
lemma SumsUp.clauseAfter_eq (h : reading.SumsUp tokens) (k : Keyword) :
    reading.clauseAfter k =
      (Clause.opened? (lastKeyword? tokens.reverse) k).getD (Clause.nearest tokens.reverse) := by
  have hby : reading.clauseAfter .BY =
      (Clause.opened? (lastKeyword? tokens.reverse) .BY).getD reading.clause := by
    simp only [clauseAfter, h.follows_iff, Clause.opened?]
    split_ifs with hgroup horder
    · rw [hgroup]
      rfl
    · rw [horder]
      rfl
    · -- neither of the two words stands before it
      split <;> simp_all
  have hinto : reading.clauseAfter .INTO =
      (Clause.opened? (lastKeyword? tokens.reverse) .INTO).getD reading.clause := by
    simp only [clauseAfter, h.follows_iff, Clause.opened?]
    split_ifs <;> rfl
  rw [← h.clause]
  cases k with
  | BY => exact hby
  | INTO => exact hinto
  | _ => rfl

/-- Reading one more token keeps the reading in step with looking backwards. -/
lemma SumsUp.read (h : reading.SumsUp tokens) (t : Token) :
    (reading.read t).SumsUp (tokens ++ [t]) where
  clause := by
    rw [List.reverse_append, List.reverse_singleton, List.singleton_append, Clause.nearest,
      ClauseReading.read]
    cases t.kind.keyword? with
    | none => exact h.clause
    | some k =>
        refine (h.clauseAfter_eq k).trans ?_
        rw [Option.bind_some]
        cases Clause.opened? (lastKeyword? tokens.reverse) k <;> rfl
  last? := by
    rw [List.reverse_append, List.reverse_singleton, List.singleton_append, List.find?_cons,
      ClauseReading.read]
    cases htrivia : t.isTrivia
    · rfl
    · exact h.last?

/-- Reading tokens from the first on comes to what looking backwards over them finds. -/
lemma sumsUp_foldl (tokens : List Token) : (tokens.foldl ClauseReading.read {}).SumsUp tokens := by
  induction tokens using List.reverseRecOn with
  | nil => exact ⟨rfl, rfl⟩
  | append_singleton tokens t ih =>
      rw [List.foldl_append, List.foldl_cons, List.foldl_nil]
      exact ih.read t

end ClauseReading

namespace Clause

/-- **One pass forwards finds the clause.** The clause at a token, or at the last token for an index
past the end, is the one in force when the tokens have been read from the first through this one.
Every keyword that names a clause brings it into force, `BY` only right after `GROUP` or `ORDER` and
`INTO` only right after `INSERT`, where trivia between the two does not count. The tokens after this
one have no part in it. -/
theorem atIndex_eq_foldl (tokens : List Token) (index : ℕ) :
    atIndex tokens index =
        ((tokens.take (min index (tokens.length - 1) + 1)).foldl ClauseReading.read {}).clause ∧
      atIndex tokens index = atIndex (tokens.take (index + 1)) index := by
  have htake : tokens.take (min index (tokens.length - 1) + 1) = tokens.take (index + 1) := by
    rcases Nat.le_total index (tokens.length - 1) with hle | hle
    · rw [Nat.min_eq_left hle]
    · rw [Nat.min_eq_right hle, List.take_of_length_le (by omega),
        List.take_of_length_le (by omega)]
  constructor
  · rw [htake, (ClauseReading.sumsUp_foldl _).clause, atIndex]
  · rw [atIndex, atIndex, List.take_take, Nat.min_self]

end Clause

end SqlCompletion
