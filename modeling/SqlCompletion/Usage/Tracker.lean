import SqlCompletion.Store.Basic
import SqlCompletion.Usage.Format
import SqlCompletion.Usage.Pending
import SqlCompletion.Usage.SortKey

/-!
Which suggestions are accepted, per connection.

Suggestions that were shown are pending for a short time. An edit that looks like one of them
being inserted counts as its acceptance. The counts of each connection are kept in a store, whose
failures are never more than a loss of counts.

* `Tracker`: the current connection with its counts and the pending suggestions;
* `Tracker.switch`, `Tracker.remember`, `Tracker.edit`, `Tracker.clear`: what may happen;
* `Tracker.sortKeyOf`, `Tracker.rank`: the order that the counts give.
-/

namespace SqlCompletion

/-- A suggestion with the text by which it is sorted. -/
structure Ranked where
  sortText : String
  suggestion : Suggestion
  deriving DecidableEq, Repr

/-- The state of usage tracking over a store. -/
structure Tracker (σ : Type) where
  store : σ
  /-- How long a suggestion stays pending, in milliseconds. -/
  window : UInt64
  connection : Option String
  usage : UsageRecord
  pending : List Pending

/-- The key under which the counts of a connection are stored. -/
def storageKey (connection : String) : String :=
  "qsense.usage." ++ connection

namespace Tracker

variable {σ : Type}

/-- A tracker without a connection. -/
def start (store : σ) (window : UInt64) (now : Int64) : Tracker σ :=
  ⟨store, window, none, .empty now, []⟩

/-- How often a label has been accepted in a category. -/
def usageCount (tracker : Tracker σ) (label : String) (category : Category) : UInt64 :=
  tracker.usage.count (category.key label)

/-- The text by which a label in a category is sorted. -/
def sortKeyOf (tracker : Tracker σ) (label : String) (category : Category) : String :=
  sortKey label category (tracker.usageCount label category)

/-- Suggestions in the order of their sort keys; those of one key keep their order. -/
def rank (tracker : Tracker σ) (suggestions : List Suggestion) : List Ranked :=
  (suggestions.map fun s => ⟨tracker.sortKeyOf s.label s.category, s⟩).mergeSort
    fun a b => a.sortText ≤ b.sortText

/-- The counts that a text of the store gives. One that cannot be read, or has another version,
counts as none. -/
def usageOfText (text : Except Error (Option String)) (now : Int64) : UsageRecord :=
  match text with
  | .ok (some raw) =>
    match UsageRecord.parse raw with
    | .ok (some usage) => usage
    | _ => .empty now
  | _ => .empty now

/-- The suggestions that are still pending at a time. -/
def livePending (tracker : Tracker σ) (now : Int64) : List Pending :=
  tracker.pending.filter fun p => !p.isExpired now tracker.window

/-- Remembers what was just shown for a range. -/
def remember (suggestions : List Suggestion) (range : Range) (now : Int64) (tracker : Tracker σ) :
    Tracker σ :=
  { tracker with
    pending := tracker.livePending now ++ suggestions.map fun s => .ofSuggestion s range now }

variable [Store σ]

/-- Makes a connection the current one and loads its counts; nothing is pending then. Switching
to the current connection changes nothing. -/
def switch (connection : String) (now : Int64) (tracker : Tracker σ) : Tracker σ :=
  if tracker.connection = some connection then tracker
  else
    let (text, store) := Store.read (storageKey connection) tracker.store
    { tracker with
      store := store
      connection := some connection
      usage := usageOfText text now
      pending := [] }

/-- Marks the counts as updated and stores them under the current connection, if there is one.
A failure of the store is passed over. -/
def persist (now : Int64) (tracker : Tracker σ) : Tracker σ :=
  let usage := { tracker.usage with lastUpdated := now }
  match tracker.connection with
  | none => { tracker with usage }
  | some connection =>
    let (_, store) := Store.write (storageKey connection) usage.render tracker.store
    { tracker with usage, store }

/-- A pending suggestion may be what an edit of a document inserted. -/
def accepts (tracker : Tracker σ) (edit : Edit) (document : String) (now : Int64) (p : Pending) :
    Bool :=
  !p.isExpired now tracker.window && p.fits edit &&
    Text.contains p.label.toList document.toList

/-- Counts an edit as the acceptance of the first pending suggestion it fits, and gives that
suggestion's key. Nothing with this key is pending then, so that no acceptance counts twice. -/
def edit (edit : Edit) (document : String) (now : Int64) (tracker : Tracker σ) :
    Option String × Tracker σ :=
  match tracker.pending.find? (tracker.accepts edit document now) with
  | none => (none, tracker)
  | some accepted =>
    let counted : Tracker σ :=
      { tracker with
        pending := tracker.pending.filter fun p => p.key != accepted.key
        usage := tracker.usage.record accepted.key accepted.category now }
    (some accepted.key, counted.persist now)

/-- Forgets all counts of the current connection, and what is pending. -/
def clear (now : Int64) (tracker : Tracker σ) : Tracker σ :=
  persist now { tracker with usage := .empty now, pending := [] }

end Tracker

end SqlCompletion
