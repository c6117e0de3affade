import SqlCompletion.Proofs.Text.Bytes
import SqlCompletion.Proofs.Text.LowerCase

/-!
Texts without the case of their ASCII letters.

* `foldCase`, `folded`: the characters of a name, and the name, in small letters as far as ASCII
  goes;
* `eq_toLower_of_capitals`: what is the same for the capital and the small letter, checked letter by
  letter;
* `slice?_map_toLower`: texts are cut at the same places;
* `lower_folded`: the small letters of a text do not depend on the case of ASCII letters.
-/

namespace SqlCompletion

open Text

/-- A name without the case of its ASCII letters. -/
def foldCase (name : String) : List Char :=
  name.toList.map Char.toLower

lemma equalIgnoringCase_eq (a b : String) :
    equalIgnoringCase a b = (foldCase a == foldCase b) := rfl

namespace Text

/-! ### Characters -/

lemma toLower_of_le_toNat {c : Char} (h : 128 ≤ c.toNat) : c.toLower = c :=
  toLower_of_isUpper_eq_false (isUpper_eq_false_of_le h)

/-- What is the same for each of the 26 capitals and its small letter is so for all characters. -/
lemma eq_toLower_of_capitals {α : Type} [DecidableEq α] {f : Char → α}
    (h : ((List.range' 65 26).all fun n =>
      decide (f (Char.ofNat n).toLower = f (Char.ofNat n))) = true) (c : Char) :
    f c.toLower = f c := by
  by_cases hc : c.isUpper = true
  · obtain ⟨hfirst, hlast⟩ := isUpper_iff.mp hc
    have hcapital := List.all_eq_true.mp h c.toNat (List.mem_range'_1.mpr ⟨hfirst, by omega⟩)
    rw [Char.ofNat_toNat] at hcapital
    exact of_decide_eq_true hcapital
  · rw [toLower_of_isUpper_eq_false (Bool.eq_false_iff.mpr hc)]

/-- What a character has whatever its case: its letters, its length and its kind. -/
def caseless (c : Char) : Char × Char × ℕ × Bool × Bool :=
  (c.toLower, c.toUpper, c.utf8Size, c.isAlpha, isCased c)

lemma caseless_toLower (c : Char) : caseless c.toLower = caseless c :=
  eq_toLower_of_capitals (by decide +kernel) c

@[simp] lemma toLower_toLower (c : Char) : c.toLower.toLower = c.toLower :=
  congrArg (·.1) (caseless_toLower c)

@[simp] lemma toUpper_toLower (c : Char) : c.toLower.toUpper = c.toUpper :=
  congrArg (·.2.1) (caseless_toLower c)

@[simp] lemma utf8Size_toLower (c : Char) : c.toLower.utf8Size = c.utf8Size :=
  congrArg (·.2.2.1) (caseless_toLower c)

@[simp] lemma isAlpha_toLower (c : Char) : c.toLower.isAlpha = c.isAlpha :=
  congrArg (·.2.2.2.1) (caseless_toLower c)

@[simp] lemma isCased_toLower (c : Char) : isCased c.toLower = isCased c :=
  congrArg (·.2.2.2.2) (caseless_toLower c)

/-- The ranges are checked once for all letters, which takes far less than each letter by itself. -/
lemma isCaseIgnorable_of_isAlpha {c : Char} (h : c.isAlpha = true) : isCaseIgnorable c = false := by
  have hapart : (caseIgnorableRanges.all fun r =>
      r.2 < 65 || 90 < r.1 && r.2 < 97 || 122 < r.1) = true := by decide +kernel
  rw [isAlpha_iff, isUpper_iff, isLower_iff] at h
  rw [isCaseIgnorable, Ranges.holds, List.any_eq_false]
  intro r hr
  have hr := List.all_eq_true.mp hapart r hr
  simp only [Bool.or_eq_true, Bool.and_eq_true, decide_eq_true_eq] at hr ⊢
  omega

@[simp] lemma isCaseIgnorable_toLower (c : Char) :
    isCaseIgnorable c.toLower = isCaseIgnorable c := by
  by_cases hc : c.isUpper = true
  · have halpha : c.isAlpha = true := isAlpha_iff.mpr (.inl hc)
    rw [isCaseIgnorable_of_isAlpha halpha,
      isCaseIgnorable_of_isAlpha ((isAlpha_toLower c).trans halpha)]
  · rw [toLower_of_isUpper_eq_false (Bool.eq_false_iff.mpr hc)]

/-- Nothing but itself is folded to a character that is no letter. -/
lemma toLower_eq_iff {c d : Char} (hd : d.isAlpha = false) : c.toLower = d ↔ c = d := by
  have hlower : ∀ {c : Char}, c.isAlpha = false → c.toLower = c := fun {c} hc => by
    refine toLower_of_isUpper_eq_false (Bool.eq_false_iff.mpr fun hupper => ?_)
    rw [isAlpha_iff.mpr (.inl hupper)] at hc
    cases hc
  constructor
  · intro h
    rw [← h, isAlpha_toLower] at hd
    rw [← h, hlower hd]
  · rintro rfl
    exact hlower hd

/-! ### Texts -/

lemma head?_map_toLower {d : Char} (hd : d.isAlpha = false) (cs : List Char) :
    (cs.map Char.toLower).head? = some d ↔ cs.head? = some d := by
  cases cs with
  | nil => rfl
  | cons c cs => simp [toLower_eq_iff hd]

@[simp] lemma byteLength_map_toLower (cs : List Char) :
    byteLength (cs.map Char.toLower) = byteLength cs := by
  induction cs with
  | nil => rfl
  | cons c cs ih => rw [List.map_cons, byteLength, byteLength, utf8Size_toLower, ih]

lemma splitAt?_map_toLower (cs : List Char) (n : ℕ) :
    splitAt? (cs.map Char.toLower) n =
      (splitAt? cs n).map fun parts => (parts.1.map Char.toLower, parts.2.map Char.toLower) := by
  induction cs generalizing n with
  | nil => cases n <;> rfl
  | cons c cs ih =>
      cases n with
      | zero => rfl
      | succ n =>
          rw [List.map_cons, splitAt?, splitAt?, utf8Size_toLower, ih]
          split_ifs
          · rw [Option.map_map, Option.map_map]
            rfl
          · rfl

/-- Texts are cut at the same places, whatever the case of their letters. -/
lemma slice?_map_toLower (cs : List Char) (start stop : ℕ) :
    slice? (cs.map Char.toLower) start stop = (slice? cs start stop).map (·.map Char.toLower) := by
  rw [slice?, slice?, splitAt?_map_toLower]
  split_ifs
  · rfl
  · cases splitAt? cs start with
    | none => rfl
    | some parts =>
        simp only [Option.map_some, Option.bind_eq_bind, Option.bind_some, splitAt?_map_toLower]
        cases splitAt? parts.2 (stop - start) <;> rfl

@[simp] lemma upperAscii_map_toLower (word : List Char) :
    upperAscii (word.map Char.toLower) = upperAscii word := by
  rw [upperAscii, upperAscii, List.map_map]
  congr 1
  exact List.map_congr_left fun c _ => toUpper_toLower c

/-! ### Small letters -/

@[simp] lemma meetsCased_map_toLower (cs : List Char) :
    meetsCased (cs.map Char.toLower) = meetsCased cs := by
  have hignored : isCaseIgnorable ∘ Char.toLower = isCaseIgnorable := funext isCaseIgnorable_toLower
  rw [meetsCased, meetsCased, List.dropWhile_map, hignored]
  cases cs.dropWhile isCaseIgnorable with
  | nil => rfl
  | cons c cs => exact isCased_toLower c

@[simp] lemma lowerChar_toLower (c : Char) : lowerChar c.toLower = lowerChar c := by
  by_cases hc : c.toNat < 128
  · have hlower : c.toLower.toNat < 128 := by
      simpa using of_ascii (p := fun c => decide (c.toLower.toNat < 128)) (by decide +kernel) hc
    rw [lowerChar, lowerChar, if_pos hc, if_pos hlower, toLower_toLower]
  · rw [toLower_of_le_toNat (Nat.le_of_not_lt hc)]

lemma lowerAfter_map_toLower (before cs : List Char) :
    lowerAfter (before.map Char.toLower) (cs.map Char.toLower) = lowerAfter before cs := by
  induction cs generalizing before with
  | nil => rfl
  | cons c cs ih =>
      have hsigma : c.toLower = 'Σ' ↔ c = 'Σ' := toLower_eq_iff (by decide)
      rw [List.map_cons, lowerAfter, lowerAfter, ← List.map_cons, ih, lowerChar_toLower,
        meetsCased_map_toLower, meetsCased_map_toLower]
      simp only [hsigma]

end Text

/-! ### Names -/

/-- A name with its ASCII letters in small. -/
def folded (name : String) : String :=
  String.ofList (foldCase name)

@[simp] lemma toList_folded (name : String) : (folded name).toList = name.toList.map Char.toLower :=
  String.toList_ofList

@[simp] lemma folded_ofList (cs : List Char) :
    folded (String.ofList cs) = String.ofList (cs.map Char.toLower) := by
  rw [folded, foldCase, String.toList_ofList]

@[simp] lemma foldCase_folded (name : String) : foldCase (folded name) = foldCase name := by
  rw [foldCase, toList_folded, List.map_map]
  exact List.map_congr_left fun c _ => toLower_toLower c

/-- Names are the same but for their case when they are the same without it. -/
lemma folded_eq_iff {a b : String} : folded a = folded b ↔ equalIgnoringCase a b = true := by
  rw [folded, folded, equalIgnoringCase_eq, beq_iff_eq, String.ofList_inj]

/-- Nothing but itself is folded to a text without letters. -/
lemma folded_eq_singleton_iff {name : String} {d : Char} (hd : d.isAlpha = false) :
    folded name = String.ofList [d] ↔ name = String.ofList [d] := by
  rw [← String.toList_inj, ← String.toList_inj, toList_folded, String.toList_ofList]
  constructor
  · intro h
    obtain ⟨c, hname, hc⟩ := List.map_eq_singleton_iff.mp h
    rw [hname, (toLower_eq_iff hd).mp hc]
  · intro h
    rw [h, List.map_singleton, (toLower_eq_iff hd).mpr rfl]

/-- The small letters of a text do not depend on the case of ASCII letters. -/
@[simp] lemma lower_folded (name : String) : lower (folded name) = lower name := by
  rw [lower, lower, toList_folded]
  exact congrArg String.ofList (lowerAfter_map_toLower [] name.toList)

end SqlCompletion
