import Mathlib.Data.Prod.Lex
import SqlCompletion.Proofs.Editor.Position

/-!
Places in a text, and the order in which they are reached by reading it.

* `Position.advance`, `Position.reached`: the line and column reached character by character;
* `Position.place`: a position in the order of lines and columns;
* `Text.completedBy_isPrefix`: what has been read at an offset begins what has been read later;
* `Position.place_after`: a position is the line and column reached, the greatest number of 32 bits
  standing for all above it;
* `Position.reached_lt_append`: reading on, later places are reached;
* `Position.LinesFit`: the texts in which no line is lost beyond the greatest number;
* `Position.place_ofOffset_reading`: positions and their order, for all texts;
* `Position.not_monotone_place`: in a text of too many lines the order is lost.
-/

namespace SqlCompletion

namespace Text

/-- What has been read at an offset begins what has been read at a later one. -/
lemma completedBy_isPrefix {i j : ℕ} (h : i ≤ j) (text : List Char) :
    completedBy text i <+: completedBy text j := by
  induction text generalizing i j with
  | nil => exact List.prefix_rfl
  | cons c text ih =>
      rw [completedBy, completedBy]
      by_cases hi : c.utf8Size ≤ i
      · rw [if_pos hi, if_pos (hi.trans h)]
        exact List.cons_prefix_cons.mpr ⟨rfl, ih (Nat.sub_le_sub_right h _)⟩
      · rw [if_neg hi]
        exact List.nil_prefix

/-- What has been read at an offset is a front part of the text, and no longer than the offset; the
next character would be. -/
lemma exists_append_completedBy (text : List Char) (offset : ℕ) :
    ∃ rest, text = completedBy text offset ++ rest ∧
      byteLength (completedBy text offset) ≤ offset ∧
      ∀ c ∈ rest.head?, offset < byteLength (completedBy text offset) + c.utf8Size := by
  induction text generalizing offset with
  | nil => exact ⟨[], rfl, Nat.zero_le _, by simp⟩
  | cons c text ih =>
      rw [completedBy]
      by_cases h : c.utf8Size ≤ offset
      · obtain ⟨rest, hsplit, hle, hnext⟩ := ih (offset - c.utf8Size)
        rw [if_pos h]
        refine ⟨rest, congrArg (c :: ·) hsplit, ?_, fun d hd => ?_⟩
        · rw [byteLength]
          omega
        · have := hnext d hd
          rw [byteLength]
          omega
      · rw [if_neg h]
        refine ⟨c :: text, rfl, Nat.zero_le _, fun d hd => ?_⟩
        obtain rfl : c = d := by simpa using hd
        simpa [byteLength] using h

end Text

open Text

namespace Position

/-! ### Reading character by character -/

/-- The line and column after one more character. -/
def advance (place : ℕ × ℕ) (c : Char) : ℕ × ℕ :=
  if c = '\n' then (place.1 + 1, 1) else (place.1, place.2 + 1)

/-- The line and column reached by reading a text from line 1, column 1. -/
def reached (text : List Char) : ℕ × ℕ :=
  text.foldl advance (1, 1)

/-- A position in the order of lines, and of columns within a line. -/
def place (p : Position) : ℕ ×ₗ ℕ :=
  toLex (p.line.toNat, p.column.toNat)

lemma reached_append_singleton (text : List Char) (c : Char) :
    reached (text ++ [c]) = advance (reached text) c := by
  rw [reached, List.foldl_append]
  rfl

/-- Reading comes to the line after all newlines, and counts columns from the last one. -/
lemma reached_eq (text : List Char) :
    reached text =
      (text.count '\n' + 1, (text.reverse.takeWhile (· ≠ '\n')).length + 1) := by
  induction text using List.reverseRecOn with
  | nil => rfl
  | append_singleton text c ih =>
      rw [reached_append_singleton, ih, advance]
      by_cases hc : c = '\n'
      · simp [hc]
      · simp [hc]

/-- There are no more lines, and no more columns, than characters and one. -/
lemma reached_le_length (text : List Char) :
    (reached text).1 ≤ text.length + 1 ∧ (reached text).2 ≤ text.length + 1 := by
  rw [reached_eq]
  exact ⟨Nat.succ_le_succ List.count_le_length, Nat.succ_le_succ (length_lastLine_le text)⟩

/-- A position is the line and column reached, as far as these fit in 32 bits. -/
lemma place_after (text : List Char) :
    (after text).place =
      toLex (min (reached text).1 (2 ^ 32 - 1), min (reached text).2 (2 ^ 32 - 1)) := by
  rw [place, after, toNat_saturate32_eq_min, toNat_saturate32_eq_min, reached_eq]

/-- Reading on, later places are reached. -/
lemma reached_lt_append (text : List Char) {part : List Char} (h : part ≠ []) :
    toLex (reached text) < toLex (reached (text ++ part)) := by
  induction part using List.reverseRecOn with
  | nil => exact absurd rfl h
  | append_singleton part c ih =>
      have hstep : toLex (reached (text ++ part)) < toLex (reached (text ++ (part ++ [c]))) := by
        rw [← List.append_assoc, reached_append_singleton, advance]
        split_ifs with hc
        · exact Prod.Lex.toLex_lt_toLex.mpr (.inl (Nat.lt_succ_self _))
        · exact Prod.Lex.toLex_lt_toLex.mpr (.inr ⟨rfl, Nat.lt_succ_self _⟩)
      rcases eq_or_ne part [] with rfl | hpart
      · simpa using hstep
      · exact (ih hpart).trans hstep

/-! ### Texts of too many lines -/

/-- No line is lost beyond the greatest line number: a newline that does not lead on to a greater one
ends an empty line. -/
def LinesFit (text : List Char) : Prop :=
  ∀ before after, text = before ++ '\n' :: after → 2 ^ 32 - 2 ≤ before.count '\n' →
    before.getLast? = some '\n'

lemma LinesFit.of_append {front rest : List Char} (h : LinesFit (front ++ rest)) :
    LinesFit front := fun before after heq => h before (after ++ rest) (by simp [heq])

/-- The line numbers of a short text fit. -/
lemma linesFit_of_byteLength_lt {text : List Char} (h : byteLength text < 2 ^ 32 - 1) :
    LinesFit text := by
  rintro before after rfl hcount
  have hle := hcount.trans List.count_le_length
  have hbytes := length_le_byteLength (before ++ '\n' :: after)
  rw [List.length_append, List.length_cons] at hbytes
  omega

/-- A column is the first one only at the beginning of a text and after a newline. -/
lemma reached_snd_eq_one_iff {text : List Char} (h : text ≠ []) :
    (reached text).2 = 1 ↔ text.getLast? = some '\n' := by
  obtain ⟨front, c, rfl⟩ := List.eq_nil_or_concat text |>.resolve_left h
  rw [List.concat_eq_append, reached_append_singleton, advance, List.getLast?_concat,
    Option.some_inj]
  split_ifs with hc
  · exact iff_of_true rfl hc
  · refine iff_of_false ?_ hc
    rw [reached_eq]
    simp

/-- A further character leads to no earlier position, unless it ends a line and the next line has no
greater number. -/
lemma place_le_append_singleton_iff (text : List Char) (c : Char) :
    (after text).place ≤ (after (text ++ [c])).place ↔
      (c = '\n' → 2 ^ 32 - 2 ≤ text.count '\n' → text.getLast? = some '\n') := by
  rw [place_after, place_after, reached_append_singleton, Prod.Lex.toLex_le_toLex, advance]
  by_cases hc : c = '\n'
  · have hline : (reached text).1 = text.count '\n' + 1 := by rw [reached_eq]
    have hcolumn : 1 ≤ (reached text).2 := by
      rw [reached_eq]
      exact Nat.le_add_left 1 _
    rw [if_pos hc]
    simp only [hc, hline, forall_const]
    by_cases hcount : 2 ^ 32 - 2 ≤ text.count '\n'
    · have hne : text ≠ [] := by
        rintro rfl
        simp at hcount
      rw [← reached_snd_eq_one_iff hne]
      simp only [hcount, forall_const]
      omega
    · simp only [hcount, false_imp_iff, iff_true]
      omega
  · rw [if_neg hc]
    exact iff_of_true (.inr ⟨rfl, min_le_min_right _ (Nat.le_succ _)⟩) fun h => absurd h hc

lemma place_le_append {front part : List Char} (h : LinesFit (front ++ part)) :
    (after front).place ≤ (after (front ++ part)).place := by
  induction part using List.reverseRecOn with
  | nil => rw [List.append_nil]
  | append_singleton part c ih =>
      rw [← List.append_assoc] at h ⊢
      refine (ih h.of_append).trans ((place_le_append_singleton_iff _ c).mpr fun hc => ?_)
      exact h (front ++ part) [] (by rw [hc])

/-- Positions stand in the order of their offsets where the lines fit, and only there. -/
lemma monotone_place_iff {text : List Char} :
    Monotone (fun offset => (ofOffset text offset).place) ↔ LinesFit text := by
  constructor
  · rintro hmono before after rfl
    have hle := hmono (Nat.le_add_right (byteLength before) (byteLength ['\n']))
    have hnext := ofOffset_append (before ++ ['\n']) after
    rw [byteLength_append, List.append_assoc, List.singleton_append] at hnext
    simp only [hnext, ofOffset_append] at hle
    exact (place_le_append_singleton_iff before '\n').mp hle rfl
  · intro hfit i j hij
    obtain ⟨part, hpart⟩ := completedBy_isPrefix hij text
    obtain ⟨rest, hrest, -⟩ := exists_append_completedBy text j
    rw [hrest] at hfit
    simp only [ofOffset]
    rw [← hpart] at hfit ⊢
    exact place_le_append hfit.of_append

/-- Of two boundaries in a short text, the later one has the later position. -/
lemma place_lt_of_lt {text : List Char} (hsize : byteLength text < 2 ^ 32 - 1) {i j : ℕ}
    (hi : IsBoundary text i) (hj : IsBoundary text j) (h : i < j) :
    (ofOffset text i).place < (ofOffset text j).place := by
  obtain ⟨before, tail, rfl, rfl⟩ := hi.exists_split
  obtain ⟨front, rest, happend, rfl⟩ := hj.exists_split
  obtain ⟨part, rfl, rfl⟩ := exists_append_of_byteLength_le happend h.le
  have hpart : part ≠ [] := by
    rintro rfl
    simp at h
  -- neither position is beyond the greatest number
  have hsmall : ∀ front rest, byteLength (front ++ rest) < 2 ^ 32 - 1 →
      (ofOffset (front ++ rest) (byteLength front)).place = toLex (reached front) := by
    intro front rest hsize
    have hlength := length_le_byteLength front
    obtain ⟨hlines, hcolumns⟩ := reached_le_length front
    rw [byteLength_append] at hsize
    have hline : (reached front).1 ≤ 2 ^ 32 - 1 := by omega
    have hcolumn : (reached front).2 ≤ 2 ^ 32 - 1 := by omega
    rw [ofOffset_append, place_after, min_eq_left hline, min_eq_left hcolumn]
  rw [hsmall before _ hsize, happend, hsmall (before ++ part) rest (happend ▸ hsize)]
  exact reached_lt_append before hpart

/-! ### All texts -/

/-- **Positions are exact, and keep the order as long as the lines fit.** The position of an offset is
the line and column reached by reading, from line 1 and column 1, the characters that end at or before
the offset, where the greatest number of 32 bits stands for all above it. The positions of a text, and
with them the beginning and end of every span, stand in the order of the offsets if and only if its
lines fit. In a text of fewer bytes than that number they do, and no two boundaries have the same
position. -/
theorem place_ofOffset_reading (text : List Char) :
    (∀ offset, ∃ before rest, text = before ++ rest ∧ byteLength before ≤ offset ∧
      (∀ c ∈ rest.head?, offset < byteLength before + c.utf8Size) ∧
      (ofOffset text offset).place =
        toLex (min (reached before).1 (2 ^ 32 - 1), min (reached before).2 (2 ^ 32 - 1))) ∧
    (Monotone (fun offset => (ofOffset text offset).place) ↔ LinesFit text) ∧
    ((∀ start stop, (Range.ofOffsets text start stop).first.place ≤
      (Range.ofOffsets text start stop).last.place) ↔ LinesFit text) ∧
    (byteLength text < 2 ^ 32 - 1 →
      LinesFit text ∧ Set.InjOn (ofOffset text) {offset | IsBoundary text offset}) := by
  refine ⟨fun offset => ?_, monotone_place_iff, ?_, fun hsize => ?_⟩
  · obtain ⟨rest, hsplit, hle, hnext⟩ := exists_append_completedBy text offset
    exact ⟨completedBy text offset, rest, hsplit, hle, hnext, place_after _⟩
  · rw [← monotone_place_iff]
    constructor
    · intro hranges i j hij
      have hle := hranges i j
      rwa [Range.ofOffsets, max_eq_left hij] at hle
    · exact fun hmono start stop => hmono (le_max_right stop start)
  · refine ⟨linesFit_of_byteLength_lt hsize, fun i hi j hj heq => ?_⟩
    rcases lt_trichotomy i j with hlt | rfl | hgt
    · exact absurd (congrArg place heq) (place_lt_of_lt hsize hi hj hlt).ne
    · rfl
    · exact absurd (congrArg place heq) (place_lt_of_lt hsize hj hi hgt).ne'

/-- Characters of two bytes, an empty line, and a last line without an end. -/
theorem place_ofOffset_reading_lines :
    let text := ['é', '\n', '\n', 'ü', 'x']
    byteLength text < 2 ^ 32 - 1 ∧ Set.InjOn (ofOffset text) {offset | IsBoundary text offset} ∧
      [0, 1, 2, 3, 4, 5, 6, 7, 9].map (fun offset => (ofOffset text offset).place) =
        [toLex (1, 1), toLex (1, 1), toLex (1, 2), toLex (2, 1), toLex (3, 1), toLex (3, 1),
          toLex (3, 2), toLex (3, 3), toLex (3, 3)] := by
  intro text
  have hsize : byteLength text < 2 ^ 32 - 1 := by decide
  exact ⟨hsize, ((place_ofOffset_reading text).2.2.2 hsize).2, by decide⟩

/-- The places reached after a letter on a line of its own, and after the end of this line. -/
lemma reached_blank_lines (n : ℕ) :
    reached (List.replicate n '\n' ++ ['a']) = (n + 1, 2) ∧
      reached (List.replicate n '\n' ++ ['a'] ++ ['\n']) = (n + 2, 1) := by
  have hlines : reached (List.replicate n '\n') = (n + 1, 1) := by
    rw [reached_eq]
    simp
  simp only [reached_append_singleton, hlines]
  exact ⟨rfl, rfl⟩

lemma byteLength_replicate_newline (n : ℕ) : byteLength (List.replicate n '\n') = n := by
  induction n with
  | zero => rfl
  | succ n ih =>
      rw [List.replicate_succ, byteLength, ih, Nat.add_comm]
      rfl

/-- **Beyond the greatest line number the order is lost.** After so many empty lines that the next one
has the greatest number, the end of that line has an earlier position than what stands on it. -/
theorem not_monotone_place :
    let lines := 2 ^ 32 - 2
    let text := List.replicate lines '\n' ++ ['a'] ++ ['\n']
    (ofOffset text (lines + 1)).place = toLex (2 ^ 32 - 1, 2) ∧
      (ofOffset text (lines + 2)).place = toLex (2 ^ 32 - 1, 1) ∧
      ¬ Monotone (fun offset => (ofOffset text offset).place) ∧
      ¬ (Range.ofOffsets text (lines + 1) (lines + 2)).first.place ≤
        (Range.ofOffsets text (lines + 1) (lines + 2)).last.place := by
  intro lines text
  obtain ⟨hletter, hend⟩ := reached_blank_lines lines
  have hfirst : (ofOffset text (lines + 1)).place = toLex (2 ^ 32 - 1, 2) := by
    have hoffset := ofOffset_append (List.replicate lines '\n' ++ ['a']) ['\n']
    rw [byteLength_append, byteLength_replicate_newline] at hoffset
    rw [show ofOffset text (lines + 1) = _ from hoffset, place_after, hletter]
    rfl
  have hlast : (ofOffset text (lines + 2)).place = toLex (2 ^ 32 - 1, 1) := by
    have hoffset := ofOffset_append text []
    rw [List.append_nil, byteLength_append, byteLength_append, byteLength_replicate_newline]
      at hoffset
    rw [show ofOffset text (lines + 2) = _ from hoffset, place_after, hend]
    rfl
  have hback : ¬ (ofOffset text (lines + 1)).place ≤ (ofOffset text (lines + 2)).place := by
    rw [hfirst, hlast]
    decide
  exact ⟨hfirst, hlast, fun hmono => hback (hmono (Nat.le_succ _)), hback⟩

end Position

end SqlCompletion
