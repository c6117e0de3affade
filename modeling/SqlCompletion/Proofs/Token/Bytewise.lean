import Mathlib.Data.List.TakeWhile
import SqlCompletion.Proofs.Text.Utf8
import SqlCompletion.Proofs.Token.Classes
import SqlCompletion.Proofs.Token.Locality

/-!
The division of a query into tokens by its bytes.

The lexer reads characters. Here the same tokens are found by reading bytes: the ends of runs,
literals and names are counted in bytes, comments are searched for in the text from an offset on,
and every cut of the text fails that is not made between two characters. No cut fails.

* `Bytewise.firstToken?`, `tokenizeBytes?`: the first token of what is left of a text, and all;
* `Bytewise.utf8EncodeChar_cases`: a byte of a character beyond ASCII is none of an ASCII character;
* `Bytewise.literalLength_bytesOf`: a backslash that takes one byte along takes the character along;
* `Bytewise.quotedName?_bytesOf`: the name between backticks is cut out on boundaries;
* `tokenizeBytes?_eq`: the tokens that are found are those of the lexer.
-/

namespace SqlCompletion

open Text

namespace Bytewise

/-! ### Counting and cutting -/

/-- The text from a byte offset on; none unless the offset is a boundary. -/
def tail? (sql : List Char) (start : ℕ) : Option (List Char) :=
  (splitAt? sql start).map Prod.snd

/-- The byte offset at which a part first occurs in a text. -/
def offsetOf? (part : List Char) : List Char → Option ℕ
  | [] => if part.isEmpty then some 0 else none
  | c :: cs =>
    if part.isPrefixOf (c :: cs) then some 0
    else (offsetOf? part cs).map (c.utf8Size + ·)

/-- The number of bytes of a class of ASCII characters at the front. -/
def runLength (p : Char → Bool) (bytes : List UInt8) : ℕ :=
  (bytes.takeWhile fun b => p (Char.ofUInt8 b)).length

/-- The number of bytes through the first closing quote. A backslash takes the byte after it
along, whatever character that byte belongs to. -/
def literalLength (quote : Char) : List UInt8 → ℕ
  | [] => 0
  | b :: rest =>
    if Char.ofUInt8 b = '\\' then
      match rest with
      | [] => 1
      | _ :: rest => 2 + literalLength quote rest
    else if Char.ofUInt8 b = quote then 1
    else 1 + literalLength quote rest

/-- The name that a backtick closes, and where it ends. The part of it that is not yet taken begins
at the offset `piece`, and the bytes that are left at `i`. -/
def quotedName? (sql : List Char) (piece i : ℕ) : List UInt8 → Option (List Char × ℕ)
  | [] => (slice? sql piece i).map fun name => (name, i)
  | b :: rest =>
    if Char.ofUInt8 b = '\x60' then do
      let front ← slice? sql piece i
      match rest with
      | [] => some (front, i + 1)
      | b' :: rest' =>
        if Char.ofUInt8 b' = '\x60' then
          (quotedName? sql (i + 2) (i + 2) rest').map fun (name, stop) =>
            (front ++ '\x60' :: name, stop)
        else some (front, i + 1)
    else quotedName? sql piece (i + 1) rest

/-- Where the operator characters end that begin at the offset `i`. At each of them the text is cut
to see whether a comment begins. -/
def operators? (sql : List Char) (i : ℕ) : List UInt8 → Option ℕ
  | [] => some i
  | b :: rest =>
    if isOperatorChar (Char.ofUInt8 b) then do
      let tail ← tail? sql i
      if opensLineComment tail || opensBlockComment tail then some i
      else operators? sql (i + 1) rest
    else some i

/-- The token that stands for the very text between two offsets. -/
def plain? (sql : List Char) (kind : List Char → TokenKind) (start stop : ℕ) : Option Token :=
  (slice? sql start stop).map fun text => ⟨kind text, String.ofList text, start, stop⟩

/-- The token that begins at the offset `start` with the byte `b`. -/
def firstToken? (sql : List Char) (start : ℕ) (b : UInt8) (rest : List UInt8) : Option Token :=
  let c := Char.ofUInt8 b
  if isBlank c then plain? sql (fun _ => .whitespace) start (start + 1 + runLength isBlank rest)
  else do
    let tail ← tail? sql start
    if opensLineComment tail then
      plain? sql (fun _ => .comment) start
        (((offsetOf? ['\n'] tail).map (start + ·)).getD (byteLength sql))
    else if opensBlockComment tail then do
      let inner ← tail? sql (start + 2)
      plain? sql (fun _ => .comment) start
        (((offsetOf? ['*', '/'] inner).map (start + 2 + · + 2)).getD (byteLength sql))
    else if c = '\x27' || c = '\x22' then
      plain? sql (fun _ => .string) start (start + 1 + literalLength c rest)
    else if c = '\x60' then
      (quotedName? sql (start + 1) (start + 1) rest).map fun (name, stop) =>
        ⟨.identifier, String.ofList name, start, stop⟩
    else if c.isDigit then
      plain? sql (fun _ => .number) start (start + 1 + runLength isNumberChar rest)
    else if let some kind := punctuation? c then
      plain? sql (fun _ => kind) start (start + 1)
    else if isOperatorChar c then do
      let stop ← operators? sql (start + 1) rest
      plain? sql (fun _ => .operator) start stop
    else if opensWord c then
      plain? sql wordKind start (start + 1 + runLength isWordChar rest)
    else
      plain? sql (fun _ => .unknown) start (start + (tail.head?.map Char.utf8Size).getD 1)

/-- The tokens of what is left of a text from the offset `start` on. -/
def tokensFrom? (sql : List Char) (start : ℕ) : List UInt8 → Option (List Token)
  | [] => some []
  | b :: rest => do
    let t ← firstToken? sql start b rest
    let later ← tokensFrom? sql t.stop (rest.drop (t.stop - (start + 1)))
    some (t :: later)
termination_by bytes => bytes.length
decreasing_by
  rw [List.length_drop, List.length_cons]
  omega


/-! ### The bytes of a character -/

lemma utf8EncodeChar_of_ascii {c : Char} (h : c.toNat < 128) :
    ∃ b, String.utf8EncodeChar c = [b] ∧ Char.ofUInt8 b = c := by
  have hbyte : (Char.ofUInt8 (UInt8.ofNat c.toNat) == c) = true :=
    of_ascii (p := fun c => Char.ofUInt8 (UInt8.ofNat c.toNat) == c) (by decide +kernel) h
  have hle : c.val.toNat ≤ 127 := Nat.le_of_lt_succ h
  refine ⟨UInt8.ofNat c.toNat, ?_, by simpa using hbyte⟩
  rw [String.utf8EncodeChar.eq_1, if_pos hle]
  rfl

/-- The byte is part of no ASCII character. -/
def IsHigh (b : UInt8) : Prop :=
  128 ≤ (Char.ofUInt8 b).toNat

lemma isHigh_ofNat {n : ℕ} (h : 128 ≤ n) (hn : n < 256) : IsHigh (UInt8.ofNat n) := by
  have hbyte : (UInt8.ofNat n).toNat = n := by simp [Nat.mod_eq_of_lt hn]
  show 128 ≤ (UInt8.ofNat n).toUInt32.toNat
  rw [UInt8.toNat_toUInt32, hbyte]
  exact h

lemma isHigh_of_mem {c : Char} (h : 128 ≤ c.toNat) {b : UInt8}
    (hb : b ∈ String.utf8EncodeChar c) : IsHigh b := by
  have hnot : ¬ c.val.toNat ≤ 127 := Nat.not_le_of_lt h
  rw [String.utf8EncodeChar.eq_1, if_neg hnot] at hb
  split_ifs at hb
  all_goals
    simp only [List.mem_cons, List.not_mem_nil, or_false] at hb
    rcases hb with rfl | rfl | rfl | rfl
    all_goals exact isHigh_ofNat (by omega) (by omega)

/-- A character is one byte that says which, or bytes that are part of no ASCII character. -/
lemma utf8EncodeChar_cases (c : Char) :
    (∃ b, String.utf8EncodeChar c = [b] ∧ Char.ofUInt8 b = c) ∨
      128 ≤ c.toNat ∧ ∀ b ∈ String.utf8EncodeChar c, IsHigh b := by
  by_cases h : c.toNat < 128
  · exact .inl (utf8EncodeChar_of_ascii h)
  · exact .inr ⟨Nat.not_lt.mp h, fun b => isHigh_of_mem (Nat.not_lt.mp h)⟩

/-! ### What is counted -/

section Counting

variable {bytes high : List UInt8}

lemma runLength_bytesOf {p : Char → Bool} (hp : IsAsciiClass p) (cs : List Char) :
    runLength p (bytesOf cs) = byteLength (cs.takeWhile p) := by
  induction cs with
  | nil => rfl
  | cons c cs ih =>
      rw [runLength] at ih
      rw [bytesOf_cons, runLength, List.takeWhile_cons]
      rcases utf8EncodeChar_cases c with ⟨b, hbytes, hb⟩ | ⟨hc, hbytes⟩
      · have hsize : c.utf8Size = 1 := by rw [← String.length_utf8EncodeChar, hbytes]; rfl
        rw [hbytes, List.singleton_append, List.takeWhile_cons, hb]
        split_ifs
        · rw [List.length_cons, ih, byteLength, hsize, Nat.add_comm]
        · rfl
      · obtain ⟨b, bs, hcons⟩ := List.exists_cons_of_ne_nil (String.utf8EncodeChar_ne_nil (c := c))
        have hb : p (Char.ofUInt8 b) = false := hp.eq_false (hbytes b (by simp [hcons]))
        rw [hcons, List.cons_append, List.takeWhile_cons, hb, hp.eq_false hc]
        rfl

lemma literalLength_cons (quote : Char) (b : UInt8) (bytes : List UInt8) :
    literalLength quote (b :: bytes) =
      if Char.ofUInt8 b = '\\' then
        match bytes with
        | [] => 1
        | _ :: bytes => 2 + literalLength quote bytes
      else if Char.ofUInt8 b = quote then 1
      else 1 + literalLength quote bytes := by
  rw [literalLength.eq_def]

lemma literalLength_append_of_isHigh {quote : Char} (hquote : quote.toNat < 128)
    (h : ∀ b ∈ high, IsHigh b) :
    literalLength quote (high ++ bytes) = high.length + literalLength quote bytes := by
  induction high with
  | nil => simp
  | cons b high ih =>
      have hb : IsHigh b := h b (List.mem_cons_self ..)
      rw [List.cons_append, literalLength_cons, if_neg (ne_of_le_toNat hb (by decide)),
        if_neg (ne_of_le_toNat hb hquote), ih fun b' hb' => h b' (List.mem_cons_of_mem b hb'),
        List.length_cons]
      omega

/-- The bytes of a character after its first are part of no ASCII character. -/
lemma utf8EncodeChar_eq_cons (c : Char) :
    ∃ b bs, String.utf8EncodeChar c = b :: bs ∧ ∀ b' ∈ bs, IsHigh b' := by
  rcases utf8EncodeChar_cases c with ⟨b, hbytes, -⟩ | ⟨-, hbytes⟩
  · exact ⟨b, [], hbytes, by simp⟩
  · obtain ⟨b, bs, hcons⟩ := List.exists_cons_of_ne_nil (String.utf8EncodeChar_ne_nil (c := c))
    exact ⟨b, bs, hcons, fun b' hb' => hbytes b' (by simp [hcons, hb'])⟩

lemma byteLength_cons (c : Char) (cs : List Char) :
    byteLength (c :: cs) = (String.utf8EncodeChar c).length + byteLength cs := by
  rw [byteLength, String.length_utf8EncodeChar]

/-- A backslash that takes a byte along takes the whole character along: what is left of it closes
no literal and escapes nothing. -/
lemma literalLength_bytesOf {quote : Char} (hquote : quote.toNat < 128)
    (hslash : quote ≠ '\\') (cs : List Char) :
    literalLength quote (bytesOf cs) = byteLength (throughQuote quote cs).1 := by
  fun_induction throughQuote quote cs with
  | case1 => rfl
  | case2 c cs covered after heq ih =>
      obtain ⟨b, bs, hbytes, hhigh⟩ := utf8EncodeChar_eq_cons c
      obtain ⟨b', hbytes', hb'⟩ := utf8EncodeChar_of_ascii (c := '\\') (by decide)
      rw [heq] at ih
      rw [bytesOf_cons, hbytes', bytesOf_cons, hbytes, List.singleton_append, List.cons_append,
        literalLength_cons, if_pos hb']
      simp only [literalLength_append_of_isHigh hquote hhigh, ih, byteLength_cons, hbytes', hbytes,
        List.length_cons, List.length_nil]
      omega
  | case3 cs h =>
      obtain ⟨b, hbytes, hb⟩ := utf8EncodeChar_of_ascii hquote
      rw [bytesOf_cons, hbytes, List.singleton_append, literalLength_cons, hb, if_neg hslash,
        if_pos rfl, byteLength_cons, hbytes]
      rfl
  | case4 c cs h hne covered after heq ih =>
      rw [heq] at ih
      rw [bytesOf_cons, byteLength_cons]
      rcases utf8EncodeChar_cases c with ⟨b, hbytes, hb⟩ | ⟨-, hhigh⟩
      · rw [hbytes, List.singleton_append, literalLength_cons, hb]
        split_ifs with hc
        · cases cs with
          | nil =>
              rw [throughQuote] at heq
              cases heq
              rfl
          | cons d cs => exact (h d cs hc rfl).elim
        · rw [ih, List.length_singleton]
      · rw [literalLength_append_of_isHigh hquote hhigh, ih]

end Counting

/-! ### What is cut -/

section Cutting

variable {sql : List Char} {bytes skipped : List UInt8}

lemma quotedName?_append {piece i : ℕ} (h : ∀ b ∈ skipped, Char.ofUInt8 b ≠ '\x60') :
    quotedName? sql piece i (skipped ++ bytes) =
      quotedName? sql piece (i + skipped.length) bytes := by
  induction skipped generalizing i with
  | nil => rfl
  | cons b skipped ih =>
      rw [List.cons_append, quotedName?.eq_def]
      simp only [if_neg (h b (List.mem_cons_self ..))]
      rw [ih fun b' hb' => h b' (List.mem_cons_of_mem b hb'), List.length_cons]
      congr 1
      omega

/-- No byte of a character that is no backtick is one. -/
lemma ofUInt8_ne_of_mem {c d : Char} (hne : c ≠ d) (hd : d.toNat < 128) {b : UInt8}
    (hb : b ∈ String.utf8EncodeChar c) : Char.ofUInt8 b ≠ d := by
  rcases utf8EncodeChar_cases c with ⟨b', hbytes, hb'⟩ | ⟨-, hhigh⟩
  · rw [hbytes, List.mem_singleton] at hb
    rwa [hb, hb']
  · exact ne_of_le_toNat (hhigh b hb) hd

/-- A part of a text is cut out between the offsets at which it begins and ends. -/
lemma slice?_of_eq {before part after : List Char} {start stop : ℕ}
    (hsql : sql = before ++ (part ++ after)) (hstart : start = byteLength before)
    (hstop : stop = start + byteLength part) : slice? sql start stop = some part := by
  rw [hsql, hstop, hstart, slice?_append]

/-- The pieces between the backticks of a name are cut on boundaries, and make up the name. -/
lemma quotedName?_bytesOf {before piece cs : List Char} {start i : ℕ}
    (hsql : sql = before ++ (piece ++ cs)) (hstart : start = byteLength before)
    (hi : i = start + byteLength piece) :
    quotedName? sql start i (bytesOf cs) =
      some (piece ++ (throughBacktick cs).2.1, i + byteLength (throughBacktick cs).1) := by
  obtain ⟨tick, htick, hchar⟩ := utf8EncodeChar_of_ascii (c := '\x60') (by decide)
  have hsize : '\x60'.utf8Size = 1 := rfl
  have hslice := slice?_of_eq hsql hstart hi
  fun_induction throughBacktick cs generalizing before piece start i with
  | case1 =>
      rw [bytesOf, List.flatMap_nil, quotedName?, hslice]
      simp [byteLength]
  | case2 rest covered name after heq ih =>
      have hrest : quotedName? sql (i + 2) (i + 2) (bytesOf rest) =
          some ([] ++ (throughBacktick rest).2.1, i + 2 + byteLength (throughBacktick rest).1) := by
        have hsql' : sql = (before ++ piece ++ ['\x60', '\x60']) ++ ([] ++ rest) := by simp [hsql]
        have hstart' : i + 2 = byteLength (before ++ piece ++ ['\x60', '\x60']) := by
          simp [hi, hstart, byteLength, hsize, Nat.add_assoc]
        exact ih hsql' hstart' rfl (slice?_of_eq hsql' hstart' rfl)
      rw [bytesOf_cons, bytesOf_cons, htick, List.singleton_append, List.singleton_append,
        quotedName?.eq_def]
      simp only [hchar, if_true, hslice, Option.bind_eq_bind, Option.bind_some, hrest, heq,
        Option.map_some, List.nil_append, byteLength, hsize]
      rw [Nat.add_assoc, ← Nat.add_assoc 1 1]
  | case3 rest h =>
      rw [bytesOf_cons, htick, List.singleton_append, quotedName?.eq_def]
      simp only [hchar, if_true, hslice, Option.bind_eq_bind, Option.bind_some]
      cases rest with
      | nil => simp [bytesOf, byteLength, hsize]
      | cons d rest =>
          have hne : d ≠ '\x60' := fun hd => h rest rfl (by rw [hd])
          obtain ⟨b, bs, hbytes, -⟩ := utf8EncodeChar_eq_cons d
          have hb := ofUInt8_ne_of_mem hne (by decide) (hbytes ▸ List.mem_cons_self ..)
          rw [bytesOf_cons, hbytes, List.cons_append]
          simp [hb, byteLength, hsize]
  | case4 c rest h hne covered name after heq ih =>
      have hsql' : sql = before ++ ((piece ++ [c]) ++ rest) := by simp [hsql]
      have hi' : i + c.utf8Size = start + byteLength (piece ++ [c]) := by
        simp [hi, byteLength, Nat.add_assoc]
      have hrest := ih hsql' hstart hi' (slice?_of_eq hsql' hstart hi')
      rw [bytesOf_cons, quotedName?_append fun b hb => ofUInt8_ne_of_mem hne (by decide) hb,
        String.length_utf8EncodeChar, hrest, heq]
      simp [byteLength, Nat.add_assoc]

lemma tail?_of_eq {before after : List Char} {start : ℕ} (hsql : sql = before ++ after)
    (hstart : start = byteLength before) : tail? sql start = some after := by
  rw [tail?, hsql, hstart, splitAt?_append]
  rfl

/-- Operator characters are single bytes, so that the text is cut on boundaries among them. -/
lemma operators?_bytesOf {before cs : List Char} {i : ℕ} (hsql : sql = before ++ cs)
    (hi : i = byteLength before) :
    operators? sql i (bytesOf cs) = some (i + byteLength (operatorRun cs).1) := by
  induction cs generalizing before i with
  | nil => simp [bytesOf, operators?, operatorRun, byteLength]
  | cons c cs ih =>
      rw [bytesOf_cons, operatorRun_cons]
      rcases utf8EncodeChar_cases c with ⟨b, hbytes, hb⟩ | ⟨hc, hhigh⟩
      · have hsize : c.utf8Size = 1 := by rw [← String.length_utf8EncodeChar, hbytes]; rfl
        have hsql' : sql = (before ++ [c]) ++ cs := by simp [hsql]
        have hrest := ih hsql' (i := i + 1) (by simp [hi, byteLength, hsize])
        rw [hbytes, List.singleton_append, operators?, hb, tail?_of_eq hsql hi]
        simp only [Option.bind_eq_bind, Option.bind_some, hrest]
        cases isOperatorChar c <;> cases opensLineComment (c :: cs) <;>
          cases opensBlockComment (c :: cs) <;> simp [byteLength, hsize, Nat.add_assoc]
      · obtain ⟨b, bs, hbytes, -⟩ := utf8EncodeChar_eq_cons c
        have hb := isAsciiClass_isOperatorChar.eq_false (hhigh b (by simp [hbytes]))
        rw [hbytes, List.cons_append, operators?, hb, isAsciiClass_isOperatorChar.eq_false hc]
        simp [byteLength]

lemma offsetOf?_newline (cs : List Char) :
    (offsetOf? ['\n'] cs).getD (byteLength cs) = byteLength (cs.takeWhile (· ≠ '\n')) := by
  induction cs with
  | nil => rfl
  | cons c cs ih =>
      have hfront : ['\n'].isPrefixOf (c :: cs) = true ↔ '\n' = c := by
        rw [List.isPrefixOf_iff_prefix, List.cons_prefix_cons, and_iff_left List.nil_prefix]
      by_cases hc : '\n' = c
      · rw [offsetOf?, if_pos (hfront.mpr hc), ← hc]
        rfl
      · rw [offsetOf?, if_neg (mt hfront.mp hc), List.takeWhile_cons,
          if_pos (decide_eq_true (Ne.symm hc)), byteLength, byteLength, ← ih]
        cases offsetOf? ['\n'] cs <;> rfl

lemma offsetOf?_blockEnd (cs : List Char) :
    ((offsetOf? ['*', '/'] cs).map (· + 2)).getD (byteLength cs) =
      byteLength (throughBlockEnd cs).1 := by
  induction cs with
  | nil => rfl
  | cons c cs ih =>
      have hfront : ['*', '/'].isPrefixOf (c :: cs) = true ↔ c = '*' ∧ cs.head? = some '/' := by
        rw [List.isPrefixOf_iff_prefix, List.cons_prefix_cons]
        cases cs with
        | nil => simp
        | cons d cs => rw [List.cons_prefix_cons, List.head?_cons, Option.some_inj]; simp [eq_comm]
      rw [offsetOf?, throughBlockEnd_cons]
      by_cases hmark : c = '*' ∧ cs.head? = some '/'
      · rw [if_pos (hfront.mpr hmark), if_pos hmark]
        rfl
      · rw [if_neg (mt hfront.mp hmark), if_neg hmark, byteLength, byteLength, ← ih]
        cases offsetOf? ['*', '/'] cs
        · rfl
        · exact Nat.add_assoc ..

lemma plain?_of_eq {before part after : List Char} {start stop : ℕ} (kind : List Char → TokenKind)
    (hsql : sql = before ++ (part ++ after)) (hstart : start = byteLength before)
    (hstop : stop = start + byteLength part) :
    plain? sql kind start stop = some ((Lexeme.plain (kind part) part).placedAt start) := by
  rw [plain?, slice?_of_eq hsql hstart hstop, hstop]
  rfl

/-- A comment to the end of the line is cut out on boundaries. -/
lemma plain?_lineComment {before rest : List Char} {start : ℕ} {c : Char}
    (hsql : sql = before ++ c :: rest) (hstart : start = byteLength before)
    (hline : opensLineComment (c :: rest) = true) :
    plain? sql (fun _ => .comment) start
        (((offsetOf? ['\n'] (c :: rest)).map (start + ·)).getD (byteLength sql)) =
      some ((Lexeme.plain .comment (c :: (frontRun (· ≠ '\n') rest).1)).placedAt start) := by
  rw [opensLineComment_cons, Bool.and_eq_true, decide_eq_true_eq] at hline
  have hcomment : (c :: rest).takeWhile (· ≠ '\n') = c :: (frontRun (· ≠ '\n') rest).1 := by
    rw [hline.1]
    rfl
  have hpart : sql = before ++
      ((c :: (frontRun (· ≠ '\n') rest).1) ++ (frontRun (· ≠ '\n') rest).2) := by
    rw [hsql, List.cons_append, frontRun_append]
  refine plain?_of_eq _ hpart hstart ?_
  rw [← hcomment, ← offsetOf?_newline, hsql, byteLength_append, ← hstart]
  cases offsetOf? ['\n'] (c :: rest) <;> rfl

/-- So is a comment between block marks, which is searched for after the opening mark. -/
lemma plain?_blockComment {before rest : List Char} {start : ℕ} {c : Char}
    (hsql : sql = before ++ c :: rest) (hstart : start = byteLength before)
    (hblock : opensBlockComment (c :: rest) = true) :
    ((tail? sql (start + 2)).bind fun inner => plain? sql (fun _ => .comment) start
        (((offsetOf? ['*', '/'] inner).map (start + 2 + · + 2)).getD (byteLength sql))) =
      some
        ((Lexeme.plain .comment (c :: '*' :: (throughBlockEnd rest.tail).1)).placedAt start) := by
  rw [opensBlockComment_cons, Bool.and_eq_true, decide_eq_true_eq, decide_eq_true_eq] at hblock
  obtain ⟨rfl, hhead⟩ := hblock
  obtain ⟨inner, rfl⟩ := List.head?_eq_some_iff.mp hhead
  have hsizes : '/'.utf8Size = 1 ∧ '*'.utf8Size = 1 := ⟨rfl, rfl⟩
  have hsql' : sql = (before ++ ['/', '*']) ++ inner := by simp [hsql]
  have hinner : start + 2 = byteLength (before ++ ['/', '*']) := by
    simp [hstart, byteLength, hsizes]
  have hpart : sql = before ++
      (('/' :: '*' :: (throughBlockEnd inner).1) ++ (throughBlockEnd inner).2) := by
    rw [hsql, List.cons_append, List.cons_append, throughBlockEnd_append]
  rw [tail?_of_eq hsql' hinner, Option.bind_some]
  refine plain?_of_eq _ hpart hstart ?_
  rw [List.tail_cons, byteLength, byteLength, ← offsetOf?_blockEnd, hsizes.1, hsizes.2, hsql',
    byteLength_append, ← hinner]
  cases offsetOf? ['*', '/'] inner
  · simp only [Option.map_none, Option.getD_none]
    omega
  · simp only [Option.map_some, Option.getD_some]
    omega

lemma firstToken?_of_ascii {before rest : List Char} {start : ℕ} {b : UInt8} {c : Char}
    (hsql : sql = before ++ c :: rest) (hstart : start = byteLength before)
    (hb : Char.ofUInt8 b = c) (hsize : c.utf8Size = 1) :
    firstToken? sql start b (bytesOf rest) = some ((scan c rest).1.placedAt start) := by
  have hplain : ∀ (kind : List Char → TokenKind) (part after : List Char) (n : ℕ),
      rest = part ++ after → n = byteLength part →
        plain? sql kind start (start + 1 + n) =
          some ((Lexeme.plain (kind (c :: part)) (c :: part)).placedAt start) := by
    intro kind part after n hrest hn
    have hpart : sql = before ++ ((c :: part) ++ after) := by rw [hsql, hrest]; rfl
    refine plain?_of_eq kind hpart hstart ?_
    rw [hn, byteLength, hsize, Nat.add_assoc]
  have hnext : start + 1 = byteLength (before ++ [c]) := by simp [hstart, byteLength, hsize]
  have hsql' : sql = (before ++ [c]) ++ rest := by simp [hsql]
  simp only [firstToken?, scan, hb, tail?_of_eq hsql hstart, Option.bind_eq_bind, Option.bind_some]
  by_cases hblank : isBlank c = true
  · rw [if_pos hblank, if_pos hblank]
    exact hplain _ _ _ _ (frontRun_append isBlank rest).symm
      (runLength_bytesOf isAsciiClass_isBlank rest)
  rw [if_neg hblank, if_neg hblank]
  by_cases hline : opensLineComment (c :: rest) = true
  · rw [if_pos hline, if_pos hline]
    exact plain?_lineComment hsql hstart hline
  rw [if_neg hline, if_neg hline]
  by_cases hblock : opensBlockComment (c :: rest) = true
  · rw [if_pos hblock, if_pos hblock]
    exact plain?_blockComment hsql hstart hblock
  rw [if_neg hblock, if_neg hblock]
  by_cases hquote : (decide (c = '\x27') || decide (c = '\x22')) = true
  · rw [if_pos hquote, if_pos hquote]
    refine hplain _ _ _ _ (throughQuote_append c rest).symm (literalLength_bytesOf ?_ ?_ rest)
    · rcases Bool.or_eq_true_iff.mp hquote with hc | hc <;> rw [of_decide_eq_true hc] <;> decide
    · rcases Bool.or_eq_true_iff.mp hquote with hc | hc <;> rw [of_decide_eq_true hc] <;> decide
  rw [if_neg hquote, if_neg hquote]
  by_cases hbacktick : c = '\x60'
  · rw [if_pos hbacktick, if_pos hbacktick]
    have hname : quotedName? sql (start + 1) (start + 1) (bytesOf rest) =
        some ([] ++ (throughBacktick rest).2.1, start + 1 + byteLength (throughBacktick rest).1) :=
      quotedName?_bytesOf (show sql = (before ++ [c]) ++ ([] ++ rest) from hsql') hnext rfl
    rw [hname, Option.map_some, List.nil_append, Lexeme.placedAt, byteLength, hsize, Nat.add_assoc]
  rw [if_neg hbacktick, if_neg hbacktick]
  by_cases hdigit : c.isDigit = true
  · rw [if_pos hdigit, if_pos hdigit]
    exact hplain _ _ _ _ (frontRun_append isNumberChar rest).symm
      (runLength_bytesOf isAsciiClass_isNumberChar rest)
  rw [if_neg hdigit, if_neg hdigit]
  cases hpunctuation : punctuation? c with
  | some kind => exact hplain (fun _ => kind) [] rest 0 rfl rfl
  | none =>
      simp only
      by_cases hoperator : isOperatorChar c = true
      · rw [if_pos hoperator, if_pos hoperator, operators?_bytesOf hsql' hnext]
        exact hplain (fun _ => .operator) _ _ _ (operatorRun_append rest).symm rfl
      rw [if_neg hoperator, if_neg hoperator]
      by_cases hword : opensWord c = true
      · rw [if_pos hword, if_pos hword]
        exact hplain wordKind _ _ _ (frontRun_append isWordChar rest).symm
          (runLength_bytesOf isAsciiClass_isWordChar rest)
      · rw [if_neg hword, if_neg hword, List.head?_cons, Option.map_some, Option.getD_some, hsize]
        exact hplain (fun _ => .unknown) [] rest 0 rfl rfl

/-- A character beyond ASCII is read as itself. -/
lemma scan_of_le_toNat {c : Char} (hc : 128 ≤ c.toNat) (rest : List Char) :
    scan c rest = (.plain .unknown [c], rest) := by
  have hne : ∀ d : Char, d.toNat < 128 → c ≠ d := fun d => ne_of_le_toNat hc
  simp [scan, opensLineComment_cons, opensBlockComment_cons, isAsciiClass_isBlank.eq_false hc,
    isAsciiClass_isDigit.eq_false hc, punctuation?_of_le_toNat hc,
    isAsciiClass_isOperatorChar.eq_false hc, isAsciiClass_opensWord.eq_false hc,
    hne '-' (by decide), hne '/' (by decide), hne '\x27' (by decide), hne '\x22' (by decide),
    hne '\x60' (by decide)]

lemma firstToken?_of_isHigh {before rest : List Char} {start : ℕ} {b : UInt8} {c : Char}
    (hsql : sql = before ++ c :: rest) (hstart : start = byteLength before)
    (hb : IsHigh b) (hc : 128 ≤ c.toNat) (bytes : List UInt8) :
    firstToken? sql start b bytes = some ((scan c rest).1.placedAt start) := by
  have hne : ∀ d : Char, d.toNat < 128 → c ≠ d := fun d => ne_of_le_toNat hc
  have hne' : ∀ d : Char, d.toNat < 128 → Char.ofUInt8 b ≠ d := fun d => ne_of_le_toNat hb
  rw [scan_of_le_toNat hc]
  simp [firstToken?, tail?_of_eq hsql hstart, opensLineComment_cons, opensBlockComment_cons,
    isAsciiClass_isBlank.eq_false hb, isAsciiClass_isDigit.eq_false hb,
    punctuation?_of_le_toNat hb, isAsciiClass_isOperatorChar.eq_false hb,
    isAsciiClass_opensWord.eq_false hb, hne '-' (by decide), hne '/' (by decide),
    hne' '\x27' (by decide), hne' '\x22' (by decide), hne' '\x60' (by decide)]
  have hpart : sql = before ++ ([c] ++ rest) := hsql
  exact plain?_of_eq (fun _ => .unknown) hpart hstart (by simp [byteLength])

/-- The first token that is found by its bytes is the first lexeme. -/
lemma firstToken?_bytesOf {before rest : List Char} {start : ℕ} {b : UInt8} {c : Char}
    (hsql : sql = before ++ c :: rest) (hstart : start = byteLength before)
    (hbytes : bytesOf (c :: rest) = b :: bytes) :
    firstToken? sql start b bytes = some ((scan c rest).1.placedAt start) := by
  rw [bytesOf_cons] at hbytes
  rcases utf8EncodeChar_cases c with ⟨b', hc, hb⟩ | ⟨hc, hhigh⟩
  · rw [hc, List.singleton_append] at hbytes
    obtain ⟨rfl, rfl⟩ := List.cons.inj hbytes
    have hsize : c.utf8Size = 1 := by rw [← String.length_utf8EncodeChar, hc]; rfl
    exact firstToken?_of_ascii hsql hstart hb hsize
  · obtain ⟨b', bs, hcons, -⟩ := utf8EncodeChar_eq_cons c
    rw [hcons, List.cons_append] at hbytes
    obtain ⟨rfl, -⟩ := List.cons.inj hbytes
    exact firstToken?_of_isHigh hsql hstart (hhigh b' (by simp [hcons])) hc bytes

/-- The bytes after a part of a text are those of what follows it. -/
lemma drop_bytesOf_append (a b : List Char) :
    (bytesOf (a ++ b)).drop (byteLength a) = bytesOf b := by
  rw [bytesOf_append, ← length_bytesOf, List.drop_left]

lemma tokensFrom?_bytesOf {before cs : List Char} {start : ℕ} (hsql : sql = before ++ cs)
    (hstart : start = byteLength before) :
    tokensFrom? sql start (bytesOf cs) = some (placeLexemes start (lexemes cs)) := by
  fun_induction lexemes cs generalizing before start
  case case1 => rw [bytesOf, List.flatMap_nil, tokensFrom?, placeLexemes]
  case case2 c rest step ih =>
      obtain ⟨more, htext, hafter⟩ := scan_append c rest
      obtain ⟨b, bs, hcons, -⟩ := utf8EncodeChar_eq_cons c
      have hbytes : bytesOf (c :: rest) = b :: (bs ++ bytesOf rest) := by
        rw [bytesOf_cons, hcons, List.cons_append]
      have hcs : c :: rest = step.1.text ++ step.2 := by rw [htext, List.cons_append, hafter]
      have hstop : start + byteLength step.1.text = byteLength (before ++ step.1.text) := by
        rw [byteLength_append, hstart]
      have hpos : 0 < byteLength step.1.text := by
        rw [htext, byteLength_cons, hcons, List.length_cons]
        omega
      -- the bytes that are dropped are those of the first token, but for the first of them
      have hdrop : (bs ++ bytesOf rest).drop (start + byteLength step.1.text - (start + 1)) =
          bytesOf step.2 := by
        rw [← drop_bytesOf_append step.1.text step.2, ← hcs, hbytes,
          ← Nat.sub_add_cancel hpos, List.drop_succ_cons]
        congr 1
        omega
      have hsql' : sql = (before ++ step.1.text) ++ step.2 := by rw [hsql, hcs, List.append_assoc]
      have hrest := ih hsql' hstop
      have hfirst : firstToken? sql start b (bs ++ bytesOf rest) = some (step.1.placedAt start) :=
        firstToken?_bytesOf hsql hstart hbytes
      have hlater : tokensFrom? sql (step.1.placedAt start).stop
          ((bs ++ bytesOf rest).drop ((step.1.placedAt start).stop - (start + 1))) =
            some (placeLexemes (start + byteLength step.1.text) (lexemes step.2)) := by
        rw [← hrest, ← hdrop]
        rfl
      rw [hbytes, tokensFrom?, hfirst, placeLexemes_cons, Option.bind_eq_bind, Option.bind_some,
        hlater]
      rfl

end Cutting

end Bytewise

open Bytewise in
/-- The tokens of a query, found by its bytes; none if it is cut off a boundary. -/
def tokenizeBytes? (sql : String) : Option (List Token) :=
  tokensFrom? sql.toList 0 sql.toByteArray.data.toList

/-- **The bytes of a query are divided as its characters are.** No cut is out of range or inside a
character, and the tokens are those of the lexer. -/
lemma tokenizeBytes?_eq (sql : String) : tokenizeBytes? sql = some (tokenize sql) := by
  rw [tokenizeBytes?, toList_toByteArray]
  have hsql : sql.toList = [] ++ sql.toList := rfl
  exact Bytewise.tokensFrom?_bytesOf hsql rfl

/-- A backslash before a character of two bytes. -/
example : tokenizeBytes? "'\\é' x" =
    some [⟨.string, "'\\é'", 0, 5⟩, ⟨.whitespace, " ", 5, 6⟩, ⟨.identifier, "x", 6, 7⟩] := by
  decide +kernel

end SqlCompletion
