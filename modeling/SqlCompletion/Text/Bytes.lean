/-!
Texts measured in UTF-8 bytes.

* `byteLength`: the number of bytes of a text;
* `splitAt?`: a text cut in two at a byte offset, when a character begins or the text ends there;
* `slice?`: the part of a text between two such offsets;
* `completedBy`: the characters that end at or before an offset, wherever it falls.
-/

namespace SqlCompletion.Text

/-- The number of bytes of a text in UTF-8. -/
def byteLength : List Char → Nat
  | [] => 0
  | c :: cs => c.utf8Size + byteLength cs

/-- The text before and after a byte offset; none when the offset lies inside a character or past
the end. -/
def splitAt? : List Char → Nat → Option (List Char × List Char)
  | cs, 0 => some ([], cs)
  | [], _ + 1 => none
  | c :: cs, n + 1 =>
    if c.utf8Size ≤ n + 1 then
      (splitAt? cs (n + 1 - c.utf8Size)).map fun (before, after) => (c :: before, after)
    else none

/-- The text from one byte offset up to another; none unless both are boundaries, in order. -/
def slice? (cs : List Char) (start stop : Nat) : Option (List Char) := do
  if stop < start then none
  else
    let (_, tail) ← splitAt? cs start
    let (part, _) ← splitAt? tail (stop - start)
    some part

/-- The characters that end at or before a byte offset. -/
def completedBy : List Char → Nat → List Char
  | [], _ => []
  | c :: cs, n => if c.utf8Size ≤ n then c :: completedBy cs (n - c.utf8Size) else []

@[simp] theorem byteLength_append (a b : List Char) :
    byteLength (a ++ b) = byteLength a + byteLength b := by
  induction a with
  | nil => simp [byteLength]
  | cons c a ih => simp [byteLength, ih, Nat.add_assoc]

/-- Cutting a text loses nothing, and the cut is where it was asked for. -/
theorem append_of_splitAt? {cs before after : List Char} {n : Nat}
    (h : splitAt? cs n = some (before, after)) : before ++ after = cs ∧ byteLength before = n := by
  induction cs generalizing n before with
  | nil =>
    cases n with
    | zero => simp_all [splitAt?, byteLength]
    | succ n => simp [splitAt?] at h
  | cons c cs ih =>
    cases n with
    | zero => obtain ⟨rfl, rfl⟩ := by simpa [splitAt?] using h
              exact ⟨rfl, rfl⟩
    | succ n =>
      rw [splitAt?] at h
      split at h
      · obtain ⟨⟨a, b⟩, hab, heq⟩ := Option.map_eq_some_iff.1 h
        obtain ⟨rfl, rfl⟩ := by simpa using heq
        obtain ⟨h₁, h₂⟩ := ih hab
        exact ⟨by simp [h₁], by simp only [byteLength]; omega⟩
      · simp at h

/-- The boundary after a text that something follows is where that text ends. -/
theorem splitAt?_append (a b : List Char) : splitAt? (a ++ b) (byteLength a) = some (a, b) := by
  induction a with
  | nil => cases b <;> simp [byteLength, splitAt?]
  | cons c a ih =>
    have hc : 0 < c.utf8Size := c.utf8Size_pos
    obtain ⟨n, hn⟩ : ∃ n, c.utf8Size + byteLength a = n + 1 := ⟨_, (Nat.succ_pred (by omega)).symm⟩
    have ha : n + 1 - c.utf8Size = byteLength a := by omega
    simp only [List.cons_append, byteLength, hn, splitAt?, ha, ih]
    simp only [Option.map_some]
    rw [if_pos (by omega)]

end SqlCompletion.Text
