import SqlCompletion.Text.Bytes

/-!
Places in a text as editors count them: lines and columns from 1, columns in characters.

* `Position`, `Range`: a place and a span;
* `Position.ofOffset`: the place of a byte offset;
* `Range.ofOffsets`: the span between two byte offsets.
-/

namespace SqlCompletion

open Text

/-- A place in a text. -/
structure Position where
  line : UInt32
  column : UInt32
  deriving DecidableEq, Repr

/-- A span of a text. -/
structure Range where
  first : Position
  last : Position
  deriving DecidableEq, Repr

/-- A number in 32 bits, the greatest of them standing for all that do not fit. -/
def saturate32 (n : Nat) : UInt32 :=
  UInt32.ofNat (min n (UInt32.size - 1))

namespace Position

/-- The place reached by reading a text from its beginning. -/
def after (text : List Char) : Position where
  line := saturate32 (text.count '\n' + 1)
  column := saturate32 ((text.reverse.takeWhile (· ≠ '\n')).length + 1)

/-- The place of a byte offset. An offset inside a character counts as its beginning, one past
the end as the end. -/
def ofOffset (text : List Char) (offset : Nat) : Position :=
  after (completedBy text offset)

/-- A place is not before another in the same text. -/
def isAtOrAfter (p q : Position) : Bool :=
  q.line < p.line || (q.line = p.line && q.column ≤ p.column)

end Position

namespace Range

/-- The span between two byte offsets; one that ends before it starts is empty. -/
def ofOffsets (text : List Char) (start stop : Nat) : Range :=
  ⟨.ofOffset text start, .ofOffset text (max stop start)⟩

end Range

end SqlCompletion
