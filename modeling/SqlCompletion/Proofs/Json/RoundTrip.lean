import Mathlib.Tactic
import SqlCompletion.Json.Reader
import SqlCompletion.Json.Writer

/-!
The reader takes back what the writer puts down.

* `readLiteral_write`: the text of a literal is read back, whatever characters it has;
* `readNumber_write`: an integer is read back, where the text does not go on like a number;
* `Value.isExact`: the values whose numbers are integers and whose literals denote texts, such as
  all that this library writes;
* `readValue_write`, and with it `Value.parse?_render`: such a value is read back, alone and at the
  front of a text.
-/

namespace SqlCompletion.Json

/-! ### String literals -/

/-- A hexadecimal digit has the value it was written for. -/
lemma hexValue?_digitChar {d : ℕ} (h : d < 16) : hexValue? (Nat.digitChar d) = some d := by
  revert d
  decide

/-- The four digits of the escape of a byte denote the byte. -/
lemma fourHex?_hexByte {n : ℕ} (h : n < 256) :
    fourHex? '0' '0' (Nat.digitChar (n / 16)) (Nat.digitChar (n % 16)) = some n := by
  have hzero : hexValue? '0' = some 0 := by decide
  have hhigh : hexValue? (Nat.digitChar (n / 16)) = some (n / 16) := hexValue?_digitChar (by omega)
  have hlow : hexValue? (Nat.digitChar (n % 16)) = some (n % 16) := hexValue?_digitChar (by omega)
  simp only [fourHex?, hzero, hhigh, hlow, Option.bind_eq_bind, Option.bind_some,
    Option.some.injEq]
  omega

/-- What is read once a character has been put before the text. -/
def withChar (c : Char) (read : Option (List CodeUnit × List Char)) :
    Option (List CodeUnit × List Char) :=
  read.map fun (units, after) => (.char c :: units, after)

/-- A backslash with a letter that has a meaning of its own denotes one character. -/
lemma readUnits_short {e c : Char} (h : escaped? e = some c) (rest : List Char) :
    readUnits ('\\' :: e :: rest) = withChar c (readUnits rest) := by
  have hu : e ≠ 'u' := by
    rintro rfl
    simp [escaped?] at h
  rw [readUnits.eq_def]
  cases hr : readUnits rest <;> simp_all [withChar]

/-- The escape of a control character denotes it. -/
lemma readUnits_control {c : Char} (h : c.toNat < 0x20) (rest : List Char) :
    readUnits ('\\' :: 'u' :: '0' :: '0' :: (hexByte c.toNat ++ rest)) =
      withChar c (readUnits rest) := by
  have hbyte := fourHex?_hexByte (n := c.toNat) (by omega)
  have hunit : CodeUnit.ofNat c.toNat = .char c := by
    rw [CodeUnit.ofNat, if_neg (by simp; omega), Char.ofNat_toNat]
  simp only [hexByte, List.cons_append, List.nil_append]
  cases hr : readUnits rest <;> simp [readUnits, withChar, hbyte, hunit, hr]

/-- A character that needs no escape denotes itself. -/
lemma readUnits_plain {c : Char} (hquote : c ≠ '\x22') (hslash : c ≠ '\\') (h : ¬c.toNat < 0x20)
    (rest : List Char) : readUnits (c :: rest) = withChar c (readUnits rest) := by
  rw [readUnits.eq_def]
  cases hr : readUnits rest <;> split <;> simp_all [withChar]

/-- A character is read back from its form inside a literal. -/
lemma readUnits_escapeChar (c : Char) (rest : List Char) :
    readUnits (escapeChar c ++ rest) = withChar c (readUnits rest) := by
  rw [escapeChar]
  split
  · subst c; exact readUnits_short (by decide) rest
  split
  · subst c; exact readUnits_short (by decide) rest
  split
  · subst c; exact readUnits_short (by decide) rest
  split
  · subst c; exact readUnits_short (by decide) rest
  split
  · subst c; exact readUnits_short (by decide) rest
  split
  · subst c; exact readUnits_short (by decide) rest
  split
  · subst c; exact readUnits_short (by decide) rest
  split
  · rename_i hcontrol
    exact readUnits_control hcontrol rest
  · rename_i hquote hslash _ _ _ _ _ hcontrol
    exact readUnits_plain hquote hslash hcontrol rest

lemma readUnits_write (cs rest : List Char) :
    readUnits (cs.flatMap escapeChar ++ '\x22' :: rest) = some (cs.map .char, rest) := by
  induction cs with
  | nil => simp [readUnits]
  | cons c cs ih =>
      rw [List.flatMap_cons, List.append_assoc, readUnits_escapeChar, ih]
      rfl

lemma pairSurrogates_map_char (cs : List Char) : pairSurrogates (cs.map .char) = some cs := by
  induction cs with
  | nil => rfl
  | cons c cs ih => rw [List.map_cons, pairSurrogates, ih]; rfl

/-- The text of a literal is read back. -/
lemma readLiteral_write (s : String) (rest : List Char) :
    readLiteral (s.toList.flatMap escapeChar ++ '\x22' :: rest) = some (some s, rest) := by
  rw [readLiteral, readUnits_write, Option.map_some]
  simp only [pairSurrogates_map_char, Option.map_some, String.ofList_toList]

/-- The key of a field is read back with the colon after it. -/
lemma readKey_write (s : String) (rest : List Char) :
    readKey (writeLiteral (some s) ++ ':' :: rest) = some (some s, rest) := by
  have hkey := readLiteral_write s (':' :: rest)
  simp only [writeLiteral, List.cons_append, List.append_assoc, List.nil_append]
  simp [readKey, skipBlanks, isBlank, hkey]

/-! ### Numbers -/

/-- The text does not go on like a number. -/
def endsNumber : List Char → Bool
  | [] => true
  | c :: _ => !(c.isDigit || c = '.' || c = 'e' || c = 'E')

/-- The digits of a number are read as such, up to the character after them. -/
lemma readDigits_append {digits rest : List Char} (hdigits : ∀ c ∈ digits, c.isDigit)
    (hrest : endsNumber rest) : readDigits (digits ++ rest) = (digits, rest) := by
  have hstop : rest.takeWhile Char.isDigit = [] ∧ rest.dropWhile Char.isDigit = rest := by
    cases rest with
    | nil => simp
    | cons c rest => simp_all [endsNumber]
  rw [readDigits, List.takeWhile_append_of_pos hdigits, List.dropWhile_append_of_pos hdigits,
    hstop.1, hstop.2, List.append_nil]

/-- No number but zero begins with the digit zero. -/
lemma head_toDigits_ne_zero {n : ℕ} (hn : 0 < n) :
    ∃ d ds, Nat.toDigits 10 n = d :: ds ∧ d ≠ '0' := by
  induction n using Nat.strong_induction_on with
  | _ n ih =>
      by_cases hlt : n < 10
      · refine ⟨_, [], Nat.toDigits_of_lt_base hlt, ?_⟩
        interval_cases n <;> decide
      · obtain ⟨d, ds, hd, hne⟩ := ih (n / 10) (by omega) (by omega)
        rw [Nat.toDigits_of_base_le (by omega) (by omega), hd]
        exact ⟨d, _, rfl, hne⟩

lemma isWhole_toDigits (n : ℕ) : isWhole (Nat.toDigits 10 n) = true := by
  rcases Nat.eq_zero_or_pos n with rfl | hn
  · rfl
  · obtain ⟨d, ds, hd, hne⟩ := head_toDigits_ne_zero hn
    cases ds <;> simp [hd, isWhole, hne]

/-- A number ends where its digits do. -/
lemma readFraction_of_endsNumber {rest : List Char} (h : endsNumber rest) :
    readFraction rest = some ([], rest) := by
  cases rest with
  | nil => rfl
  | cons c rest =>
      rw [readFraction.eq_def]
      split <;> simp_all [endsNumber]

lemma readExponent_of_endsNumber {rest : List Char} (h : endsNumber rest) :
    readExponent rest = some (none, rest) := by
  cases rest with
  | nil => rfl
  | cons c rest => simp_all [readExponent, endsNumber]

lemma readMinus_writeSign (negative : Bool) {digits : List Char} (rest : List Char)
    (hdigits : ∀ c ∈ digits, c.isDigit) (hne : digits ≠ []) :
    readMinus (writeSign negative ++ (digits ++ rest)) = (negative, digits ++ rest) := by
  cases negative with
  | true => rfl
  | false =>
      obtain ⟨d, ds, rfl⟩ := List.exists_cons_of_ne_nil hne
      have hd : d ≠ '-' := by
        rintro rfl
        exact absurd (hdigits '-' (by simp)) (by decide)
      rw [readMinus.eq_def]
      split <;> simp_all [writeSign]

/-- An integer is read back from its digits. -/
lemma readNumber_write (negative : Bool) (magnitude : ℕ) {rest : List Char}
    (hrest : endsNumber rest) :
    readNumber (writeNumber (.integer negative magnitude) ++ rest) =
      some (.integer negative magnitude, rest) := by
  have hdigits : ∀ c ∈ Nat.toDigits 10 magnitude, c.isDigit := fun c hc =>
    Nat.isDigit_of_mem_toDigits (by omega) (by omega) hc
  simp only [writeNumber, List.append_assoc, readNumber,
    readMinus_writeSign negative rest hdigits Nat.toDigits_ne_nil,
    readDigits_append hdigits hrest, isWhole_toDigits, readFraction_of_endsNumber hrest]
  simp [readExponent_of_endsNumber hrest]

/-! ### Values -/

/-- The number is written without a fraction and without an exponent. -/
def Number.isInteger : Number → Bool
  | .integer .. => true
  | .decimal .. => false

namespace Value

mutual

/-- Every number is an integer and every literal denotes a text. -/
def isExact : Value → Bool
  | .null | .bool _ => true
  | .number n => n.isInteger
  | .string s => s.isSome
  | .array vs => itemsAreExact vs
  | .object fields => fieldsAreExact fields

/-- All items are exact. -/
def itemsAreExact : List Value → Bool
  | [] => true
  | v :: vs => v.isExact && itemsAreExact vs

/-- All keys denote texts and all values are exact. -/
def fieldsAreExact : List (Literal × Value) → Bool
  | [] => true
  | (key, v) :: fields => key.isSome && v.isExact && fieldsAreExact fields

end

end Value

/-- A digit and a minus sign, with which the written numbers begin, are neither blanks nor marks
with which other values begin or end. -/
lemma numberOpener_ne {c : Char} (h : c.isDigit ∨ c = '-') :
    ∀ d ∈ [' ', '\t', '\n', '\r', '\x22', '[', ']', '\x7b', 'n', 't', 'f'], c ≠ d := by
  have hopeners : ([' ', '\t', '\n', '\r', '\x22', '[', ']', '\x7b', 'n', 't', 'f'].all
      fun d => !d.isDigit && d != '-') = true := by decide
  rintro d hd rfl
  have hd := List.all_eq_true.mp hopeners c hd
  rcases h with h | rfl
  · simp [h] at hd
  · simp at hd

lemma skipBlanks_cons {c : Char} (h : isBlank c = false) (cs : List Char) :
    skipBlanks (c :: cs) = c :: cs := by
  simp [skipBlanks, h]

/-- A digit or a minus sign begins a number and nothing else. -/
lemma readValue_number {c : Char} (h : c.isDigit ∨ c = '-') (bound : ℕ) (cs : List Char) :
    readValue (bound + 1) (c :: cs) = (readNumber (c :: cs)).map fun (n, after) =>
      (.number n, after) := by
  have hne := numberOpener_ne h
  have hblank : isBlank c = false := by simp [isBlank, hne]
  rw [readValue, skipBlanks_cons hblank]
  split
  case h_7 =>
    cases readNumber (c :: cs) <;> rfl
  all_goals
    rename_i heq
    exact absurd (List.cons.inj heq).1 (hne _ (by simp))

lemma exists_writeNumber_eq_cons {n : Number} (hn : n.isInteger) :
    ∃ c cs, writeNumber n = c :: cs ∧ (c.isDigit ∨ c = '-') := by
  cases n with
  | decimal => simp [Number.isInteger] at hn
  | integer negative magnitude =>
      cases negative with
      | true => exact ⟨'-', _, rfl, .inr rfl⟩
      | false =>
          obtain ⟨d, ds, hd⟩ :=
            List.exists_cons_of_ne_nil (Nat.toDigits_ne_nil (n := magnitude) (b := 10))
          refine ⟨d, ds, hd, .inl (Nat.isDigit_of_mem_toDigits (b := 10) (n := magnitude) ?_ ?_ ?_)⟩
          · omega
          · omega
          · simp [hd]

/-- No value is written as nothing, and none begins with a blank or a closing bracket. -/
lemma exists_write_eq_cons {v : Value} (hv : v.isExact) :
    ∃ c cs, v.write = c :: cs ∧ isBlank c = false ∧ c ≠ ']' := by
  cases v with
  | null => exact ⟨_, _, rfl, by decide, by decide⟩
  | bool b => cases b <;> exact ⟨_, _, rfl, by decide, by decide⟩
  | number n =>
      obtain ⟨c, cs, hc, hopens⟩ := exists_writeNumber_eq_cons (by simpa [Value.isExact] using hv)
      have hne := numberOpener_ne hopens
      exact ⟨c, cs, hc, by simp [isBlank, hne], hne _ (by simp)⟩
  | string s => cases s <;> exact ⟨_, _, rfl, by decide, by decide⟩
  | array vs => cases vs <;> exact ⟨_, _, rfl, by decide, by decide⟩
  | object fields => cases fields <;> exact ⟨_, _, rfl, by decide, by decide⟩

/-- What follows an item of an array ends a number. -/
lemma endsNumber_writeItems (vs : List Value) (rest : List Char) :
    endsNumber (Value.writeItems vs ++ rest) := by
  cases vs <;> rfl

/-- What follows a field of an object ends a number. -/
lemma endsNumber_writeFields (fields : List (Literal × Value)) (rest : List Char) :
    endsNumber (Value.writeFields fields ++ rest) := by
  rcases fields with _ | ⟨⟨key, v⟩, fields⟩ <;> rfl

mutual

/-- An exact value is read back at the front of a text, under any bound that its own length
meets. -/
lemma readValue_write : ∀ (v : Value), v.isExact → ∀ (bound : ℕ), v.write.length ≤ bound →
    ∀ rest, endsNumber rest → readValue bound (v.write ++ rest) = some (v, rest)
  | v, hv, 0, hbound, rest, hrest => by
      obtain ⟨c, cs, hc, -, -⟩ := exists_write_eq_cons hv
      simp [hc] at hbound
  | .null, _, bound + 1, _, rest, _ => by
      simp [Value.write, readValue, skipBlanks, isBlank]
  | .bool true, _, bound + 1, _, rest, _ => by
      simp [Value.write, readValue, skipBlanks, isBlank]
  | .bool false, _, bound + 1, _, rest, _ => by
      simp [Value.write, readValue, skipBlanks, isBlank]
  | .number n, hv, bound + 1, _, rest, hrest => by
      have hn : n.isInteger := by simpa [Value.isExact] using hv
      obtain ⟨c, cs, hc, hopens⟩ := exists_writeNumber_eq_cons hn
      have hread : readNumber (writeNumber n ++ rest) = some (n, rest) := by
        cases n with
        | decimal => simp [Number.isInteger] at hn
        | integer negative magnitude => exact readNumber_write negative magnitude hrest
      rw [Value.write, hc, List.cons_append, readValue_number hopens, ← List.cons_append, ← hc,
        hread]
      rfl
  | .string none, hv, _, _, _, _ => by simp [Value.isExact] at hv
  | .string (some s), _, bound + 1, _, rest, _ => by
      have hread := readLiteral_write s rest
      simp [Value.write, writeLiteral, readValue, skipBlanks, isBlank, hread]
  | .array [], _, bound + 1, _, rest, _ => by
      simp [Value.write, readValue, skipBlanks, isBlank]
  | .array (v :: vs), hv, bound + 1, hbound, rest, _ => by
      simp only [Value.isExact, Value.itemsAreExact, Bool.and_eq_true] at hv
      simp only [Value.write, List.length_cons, List.length_append] at hbound
      have hv₁ := readValue_write v hv.1 bound (by omega) _ (endsNumber_writeItems vs rest)
      have hvs := readItems_write vs hv.2 bound (by omega) rest
      obtain ⟨c, cs, hc, hblank, hclose⟩ := exists_write_eq_cons hv.1
      have hskip : skipBlanks (v.write ++ (Value.writeItems vs ++ rest)) =
          v.write ++ (Value.writeItems vs ++ rest) := by
        rw [hc]
        exact skipBlanks_cons hblank _
      have hopen : isBlank '[' = false := by decide
      simp only [Value.write, List.cons_append, List.append_assoc, readValue,
        skipBlanks_cons hopen, hskip]
      split
      · rename_i heq
        rw [hc] at heq
        exact absurd (List.cons.inj heq).1 hclose
      · simp [hv₁, hvs]
  | .object [], _, bound + 1, _, rest, _ => by
      simp [Value.write, readValue, skipBlanks, isBlank]
  | .object ((none, v) :: fields), hv, _, _, _, _ => by
      simp [Value.isExact, Value.fieldsAreExact] at hv
  | .object ((some key, v) :: fields), hv, bound + 1, hbound, rest, _ => by
      simp only [Value.isExact, Value.fieldsAreExact, Bool.and_eq_true] at hv
      simp only [Value.write, List.length_cons, List.length_append] at hbound
      have hkey := readKey_write key (v.write ++ (Value.writeFields fields ++ rest))
      have hv₁ := readValue_write v hv.1.2 bound (by omega) _ (endsNumber_writeFields fields rest)
      have hfields := readFields_write fields hv.2 bound (by omega) rest
      have hskip : ∀ cs, skipBlanks (writeLiteral (some key) ++ cs) =
          writeLiteral (some key) ++ cs := fun cs => skipBlanks_cons (by decide) _
      have hopen : isBlank '\x7b' = false := by decide
      simp only [Value.write, List.cons_append, List.append_assoc, readValue,
        skipBlanks_cons hopen, hskip]
      split
      · rename_i heq
        simp [writeLiteral] at heq
      · simp [hkey, hv₁, hfields]

/-- The items of an array are read back with its closing bracket. -/
lemma readItems_write : ∀ (vs : List Value), Value.itemsAreExact vs → ∀ (bound : ℕ),
    (Value.writeItems vs).length ≤ bound → ∀ rest,
      readItems bound (Value.writeItems vs ++ rest) = some (vs, rest)
  | vs, _, 0, hbound, rest => by cases vs <;> simp [Value.writeItems] at hbound
  | [], _, bound + 1, _, rest => by simp [Value.writeItems, readItems, skipBlanks, isBlank]
  | v :: vs, hvs, bound + 1, hbound, rest => by
      simp only [Value.itemsAreExact, Bool.and_eq_true] at hvs
      simp only [Value.writeItems, List.length_cons, List.length_append] at hbound
      have hv := readValue_write v hvs.1 bound (by omega) _ (endsNumber_writeItems vs rest)
      have hrest := readItems_write vs hvs.2 bound (by omega) rest
      simp [Value.writeItems, readItems, skipBlanks, isBlank, hv, hrest]

/-- The fields of an object are read back with its closing brace. -/
lemma readFields_write : ∀ (fields : List (Literal × Value)), Value.fieldsAreExact fields →
    ∀ (bound : ℕ), (Value.writeFields fields).length ≤ bound → ∀ rest,
      readFields bound (Value.writeFields fields ++ rest) = some (fields, rest)
  | fields, _, 0, hbound, rest => by
      rcases fields with _ | ⟨⟨key, v⟩, fields⟩ <;> simp [Value.writeFields] at hbound
  | [], _, bound + 1, _, rest => by simp [Value.writeFields, readFields, skipBlanks, isBlank]
  | (none, v) :: fields, hfields, bound + 1, _, rest => by
      simp [Value.fieldsAreExact] at hfields
  | (some key, v) :: fields, hfields, bound + 1, hbound, rest => by
      simp only [Value.fieldsAreExact, Bool.and_eq_true] at hfields
      simp only [Value.writeFields, List.length_cons, List.length_append] at hbound
      have hkey := readKey_write key (v.write ++ (Value.writeFields fields ++ rest))
      have hv := readValue_write v hfields.1.2 bound (by omega) _
        (endsNumber_writeFields fields rest)
      have hrest := readFields_write fields hfields.2 bound (by omega) rest
      simp [Value.writeFields, readFields, skipBlanks, isBlank, hkey, hv, hrest]

end

/-- An exact value is read back from its text. -/
theorem Value.parse?_render {v : Value} (hv : v.isExact) : Value.parse? v.render = some v := by
  have hread := readValue_write v hv (v.write.length + 1) (by omega) [] rfl
  rw [List.append_nil] at hread
  simp [Value.parse?, Value.render, hread]

end SqlCompletion.Json
