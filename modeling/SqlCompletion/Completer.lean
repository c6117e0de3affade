import SqlCompletion.Metadata.Cache
import SqlCompletion.Suggestion.Candidates
import SqlCompletion.Usage.Tracker

/-!
Completion from end to end: the context is resolved, metadata requested, suggestions built, ranked
and remembered as shown.

* `Completion`: what is shown to the user;
* `Completer`: the cached metadata and the tracker;
* `Completer.complete`: one completion.
-/

namespace SqlCompletion

open Text

/-- What a completion shows. -/
structure Completion where
  context : Context
  /-- The range of the word that a suggestion replaces. -/
  range : Range
  items : List Ranked
  deriving DecidableEq, Repr

/-- The state of completion over a store. -/
structure Completer (σ : Type) where
  cache : MetadataCache
  tracker : Tracker σ

namespace Completer

variable {σ : Type}

/-- The value of an answer, or a default for one that failed. -/
def valueOr {α : Type} (fallback : α) : Except Error (Kept α) → α
  | .ok kept => kept.value
  | .error _ => fallback

/-- Completes at a byte offset of a query. Metadata that cannot be loaded is left out, and without
a connection metadata is that of the connection with the empty name. -/
def complete (source : Source) (sql : String) (cursor : Nat) (selectedDatabase : Option String)
    (now : Int64) (completer : Completer σ) : Completion × Completer σ :=
  let cursor := min cursor (byteLength sql.toList)
  let context := Context.resolve sql cursor selectedDatabase
  let connection := completer.tracker.connection.getD ""
  let (schema, cache) := completer.cache.requestSchema source connection
  let (functions, cache) := cache.requestFunctions source connection
  let (keywords, cache) := cache.requestKeywords source connection
  let built := suggestions context (valueOr {} schema) (valueOr [] functions) (valueOr [] keywords)
  let items := completer.tracker.rank built
  let range := Range.ofOffsets sql.toList context.wordStart cursor
  let tracker := completer.tracker.remember (items.map Ranked.suggestion) range now
  (⟨context, range, items⟩, ⟨cache, tracker⟩)

end Completer

end SqlCompletion
