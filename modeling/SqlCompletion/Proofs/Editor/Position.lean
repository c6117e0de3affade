import SqlCompletion.Editor.Position
import SqlCompletion.Proofs.Text.Bytes

/-!
Places in a text, and spans within a line.

* `completedBy_append`: what has been read at a boundary is the text before it;
* `Position.after_append`: reading on within a line moves the column alone;
* `Range.ofOffsets_append`: a part of a line spans as many columns as it has characters.
-/

namespace SqlCompletion

namespace Text

/-- What has been read at a boundary is the text before it. -/
lemma completedBy_append (before after : List Char) :
    completedBy (before ++ after) (byteLength before) = before := by
  induction before with
  | nil =>
      cases after with
      | nil => rfl
      | cons c after => exact if_neg (Nat.not_le.mpr c.utf8Size_pos)
  | cons c before ih =>
      rw [List.cons_append, byteLength, completedBy, if_pos (Nat.le_add_right _ _),
        Nat.add_sub_cancel_left, ih]

end Text

open Text

/-- The greatest number of 32 bits stands for all above it. -/
lemma toNat_saturate32_eq_min (n : ℕ) : (saturate32 n).toNat = min n (2 ^ 32 - 1) := by
  have hlt : min n (UInt32.size - 1) < UInt32.size := by
    rw [UInt32.size]
    omega
  rw [saturate32, UInt32.toNat_ofNat_of_lt' hlt]
  rfl

/-- A number that fits in 32 bits is kept. -/
lemma toNat_saturate32 {n : ℕ} (h : n < UInt32.size) : (saturate32 n).toNat = n :=
  (toNat_saturate32_eq_min n).trans (min_eq_left (Nat.le_pred_of_lt h))

namespace Position

/-- The last line is no longer than the text. -/
lemma length_lastLine_le (text : List Char) :
    (text.reverse.takeWhile (· ≠ '\n')).length ≤ text.length :=
  (List.takeWhile_sublist _).length_le.trans_eq List.length_reverse

/-- The place at a boundary is the one reached by reading the text before it. -/
lemma ofOffset_append (before rest : List Char) :
    ofOffset (before ++ rest) (byteLength before) = after before := by
  rw [ofOffset, completedBy_append]

/-- Reading on within a line moves the column alone, by one for each character. -/
lemma after_append {text part : List Char} (hline : '\n' ∉ part)
    (hsize : byteLength (text ++ part) < UInt32.size - 1) :
    (after (text ++ part)).line = (after text).line ∧
      (after (text ++ part)).column.toNat = (after text).column.toNat + part.length := by
  have hpart : ∀ c ∈ part.reverse, decide (c ≠ '\n') = true := fun c hc =>
    decide_eq_true fun h => hline (h ▸ List.mem_reverse.mp hc)
  have hcolumns : ((text ++ part).reverse.takeWhile (· ≠ '\n')).length =
      part.length + (text.reverse.takeWhile (· ≠ '\n')).length := by
    rw [List.reverse_append, List.takeWhile_append_of_pos hpart, List.length_append,
      List.length_reverse]
  have hle := length_lastLine_le text
  have hbytes := length_le_byteLength (text ++ part)
  rw [List.length_append] at hbytes
  constructor
  · rw [after, after, List.count_append, List.count_eq_zero.mpr hline, Nat.add_zero]
  · rw [after, after]
    dsimp only
    rw [hcolumns, toNat_saturate32 (by omega), toNat_saturate32 (by omega)]
    omega

end Position

/-- A part of a line spans as many columns as it has characters. -/
lemma Range.ofOffsets_append {before part rest : List Char} (hline : '\n' ∉ part)
    (hsize : byteLength (before ++ (part ++ rest)) < UInt32.size - 1) :
    let range := ofOffsets (before ++ (part ++ rest)) (byteLength before)
      (byteLength before + byteLength part)
    range.first.line = range.last.line ∧
      range.last.column.toNat = range.first.column.toNat + part.length := by
  intro range
  have hfirst : range.first = .after before := Position.ofOffset_append before (part ++ rest)
  have hlast : range.last = .after (before ++ part) := by
    have hoffset := Position.ofOffset_append (before ++ part) rest
    rw [List.append_assoc, byteLength_append] at hoffset
    rw [← hoffset, ← max_eq_left (Nat.le_add_right (byteLength before) (byteLength part))]
    rfl
  have hfront : byteLength (before ++ part) < UInt32.size - 1 := by
    rw [← List.append_assoc, byteLength_append] at hsize
    omega
  obtain ⟨hsame, hcolumns⟩ := Position.after_append hline hfront
  rw [hfirst, hlast]
  exact ⟨hsame.symm, hcolumns⟩

end SqlCompletion
