import SqlCompletion.Editor.Edit
import SqlCompletion.Suggestion.Basic
import SqlCompletion.Text.Ascii

/-!
Suggestions that were shown and may still be accepted.

* `Pending`: a suggestion with the range it would replace and the time it was shown;
* `Pending.isExpired`: it was shown too long ago;
* `Pending.fits`: an edit looks like it being inserted.
-/

namespace SqlCompletion

open Text

/-- A suggestion that was shown. -/
structure Pending where
  label : String
  category : Category
  /-- The range of the word that the suggestion would replace. -/
  range : Range
  shownAt : Int64
  deriving DecidableEq, Repr

/-- The time from one instant to another, kept within 64 bits. -/
def elapsed (since now : Int64) : Int :=
  max Int64.minValue.toInt (min Int64.maxValue.toInt (now.toInt - since.toInt))

namespace Pending

/-- The suggestion as shown at a time for a range. -/
def ofSuggestion (s : Suggestion) (range : Range) (now : Int64) : Pending :=
  ⟨s.label, s.category, range, now⟩

/-- The key under which an acceptance is counted. -/
def key (p : Pending) : String :=
  p.category.key p.label

/-- More time than the window has passed since the suggestion was shown. A window beyond the
greatest time counts as that time. -/
def isExpired (p : Pending) (now : Int64) (window : UInt64) : Bool :=
  min (window.toNat : Int) Int64.maxValue.toInt < elapsed p.shownAt now

/-- The greatest column at which an insertion of the suggestion may end. -/
def columnLimit (p : Pending) : Nat :=
  min (p.range.last.column.toNat + (saturate32 p.label.toList.length).toNat) (UInt32.size - 1)

/-- An edit looks like the suggestion being inserted: it starts at or after the word, ends no
further than the word and the label together, and inserts a text with the label in it. -/
def fits (p : Pending) (edit : Edit) : Bool :=
  edit.range.first.isAtOrAfter p.range.first &&
    edit.range.last.column.toNat ≤ p.columnLimit &&
    contains p.label.toList edit.inserted.toList

end Pending

end SqlCompletion
