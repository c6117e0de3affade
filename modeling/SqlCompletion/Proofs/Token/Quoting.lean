import SqlCompletion.Proofs.Token.Lossless
import SqlCompletion.Proofs.Token.Splitting

/-!
Names between backticks: how a name is quoted, and how it is read back.

* `doubled`, `quoted`: a name with its backticks doubled, and this between two backticks;
* `IsPaired`, `IsClosed`: texts in which backticks come in twos, and these between two backticks;
* `throughBacktick_doubled`, `throughBacktick_unfinished`: the name is read back, with or without a
  backtick that closes it;
* `exists_doubled`: every text is of one of these two forms;
* `exists_throughBacktick_front`: how a name is read when the text ends early;
* `tokenize_quoted`: the same of the tokens of a query.
-/

namespace SqlCompletion

open Text

/-! ### Quoting -/

/-- A name with its backticks doubled. -/
def doubled (name : List Char) : List Char :=
  name.flatMap fun c => if c = '\x60' then ['\x60', '\x60'] else [c]

/-- A name between backticks, with its own backticks doubled. -/
def quoted (name : String) : String :=
  String.ofList ('\x60' :: (doubled name.toList ++ ['\x60']))

@[simp] lemma doubled_backtick (name : List Char) :
    doubled ('\x60' :: name) = '\x60' :: '\x60' :: doubled name := rfl

lemma doubled_cons {c : Char} (hc : c ≠ '\x60') (name : List Char) :
    doubled (c :: name) = c :: doubled name := by
  simp [doubled, hc]

/-- A text in which backticks come in twos. -/
inductive IsPaired : List Char → Prop
  | nil : IsPaired []
  | pair {cs : List Char} (h : IsPaired cs) : IsPaired ('\x60' :: '\x60' :: cs)
  | plain {c : Char} {cs : List Char} (hc : c ≠ '\x60') (h : IsPaired cs) : IsPaired (c :: cs)

/-- A text that a backtick opens and another one closes. -/
def IsClosed (part : List Char) : Prop :=
  ∃ inside, IsPaired inside ∧ part = '\x60' :: (inside ++ ['\x60'])

lemma isPaired_doubled (name : List Char) : IsPaired (doubled name) := by
  induction name with
  | nil => exact .nil
  | cons c name ih =>
      by_cases hc : c = '\x60'
      · subst hc
        exact .pair ih
      · rw [doubled_cons hc]
        exact .plain hc ih

lemma isClosed_quoted (name : List Char) : IsClosed ('\x60' :: (doubled name ++ ['\x60'])) :=
  ⟨doubled name, isPaired_doubled name, rfl⟩

namespace IsPaired

variable {cs : List Char}

/-- What has its backticks in twos is some name with its backticks doubled. -/
lemma exists_eq_doubled (h : IsPaired cs) : ∃ name, cs = doubled name := by
  induction h with
  | nil => exact ⟨[], rfl⟩
  | pair _ ih =>
      obtain ⟨name, rfl⟩ := ih
      exact ⟨'\x60' :: name, rfl⟩
  | @plain c _ hc _ ih =>
      obtain ⟨name, rfl⟩ := ih
      exact ⟨c :: name, (doubled_cons hc name).symm⟩

lemma even_count (h : IsPaired cs) : Even (cs.count '\x60') := by
  induction h with
  | nil => exact ⟨0, rfl⟩
  | pair _ ih =>
      rw [List.count_cons_self, List.count_cons_self]
      exact (ih.add_one).add_one
  | plain hc _ ih => rwa [List.count_cons_of_ne hc]

/-- A name that is opened and goes on to the end is not closed: of its backticks there is an odd
number. -/
lemma not_isClosed (h : IsPaired cs) : ¬IsClosed ('\x60' :: cs) := by
  rintro ⟨inside, hinside, heq⟩
  have hcs := h.even_count
  rw [(List.cons.inj heq).2, List.count_append, List.count_singleton_self] at hcs
  exact Nat.not_even_iff_odd.mpr hinside.even_count.add_one hcs

end IsPaired

/-! ### Reading a name back -/

/-- A name with its backticks doubled is read back, whatever follows it. -/
lemma throughBacktick_doubled_append (name cs : List Char) :
    throughBacktick (doubled name ++ cs) = (doubled name ++ (throughBacktick cs).1,
      name ++ (throughBacktick cs).2.1, (throughBacktick cs).2.2) := by
  induction name with
  | nil => rfl
  | cons c name ih =>
      by_cases hc : c = '\x60'
      · subst hc
        rw [doubled_backtick, List.cons_append, List.cons_append, throughBacktick, ih]
        rfl
      · rw [doubled_cons hc, List.cons_append, throughBacktick_cons, if_neg hc, ih]
        rfl

/-- A backtick with no other after it closes the name. -/
lemma throughBacktick_doubled (name : List Char) {rest : List Char}
    (h : rest.head? ≠ some '\x60') :
    throughBacktick (doubled name ++ '\x60' :: rest) = (doubled name ++ ['\x60'], name, rest) := by
  rw [throughBacktick_doubled_append, throughBacktick_cons, if_pos rfl, if_neg h, List.append_nil]

/-- Without a backtick that closes it, the name is all there is. -/
lemma throughBacktick_unfinished (name : List Char) :
    throughBacktick (doubled name) = (doubled name, name, []) := by
  have hread := throughBacktick_doubled_append name []
  simpa [throughBacktick] using hread

/-- A text is a name with its backticks doubled up to a backtick that closes it, or to the end. -/
lemma exists_doubled (cs : List Char) :
    ∃ name rest, cs = doubled name ++ rest ∧
      (rest = [] ∨ ∃ after, rest = '\x60' :: after ∧ after.head? ≠ some '\x60') := by
  -- by two characters at a time, as pairs of backticks are read
  induction cs using List.twoStepInduction with
  | nil => exact ⟨[], [], rfl, .inl rfl⟩
  | singleton c =>
      by_cases hc : c = '\x60'
      · exact ⟨[], [c], rfl, .inr ⟨[], by rw [hc], by simp⟩⟩
      · exact ⟨[c], [], by rw [doubled_cons hc]; rfl, .inl rfl⟩
  | cons_cons c d cs ih ih' =>
      by_cases hc : c = '\x60'
      · subst hc
        by_cases hd : d = '\x60'
        · obtain ⟨name, rest, rfl, hrest⟩ := ih
          subst hd
          exact ⟨'\x60' :: name, rest, rfl, hrest⟩
        · exact ⟨[], '\x60' :: d :: cs, rfl, .inr ⟨d :: cs, rfl, by simpa using hd⟩⟩
      · obtain ⟨name, rest, hcs, hrest⟩ := ih' d
        exact ⟨c :: name, rest, by rw [hcs, doubled_cons hc]; rfl, hrest⟩

lemma length_doubled (name : List Char) :
    (doubled name).length = name.length + name.count '\x60' := by
  induction name with
  | nil => rfl
  | cons c name ih =>
      by_cases hc : c = '\x60'
      · subst hc
        rw [doubled_backtick, List.length_cons, List.length_cons, ih, List.length_cons,
          List.count_cons_self]
        omega
      · rw [doubled_cons hc, List.length_cons, ih, List.length_cons, List.count_cons_of_ne hc]
        omega

lemma mem_doubled {c : Char} {name : List Char} : c ∈ doubled name ↔ c ∈ name := by
  have hmem : ∀ d, c ∈ (if d = '\x60' then ['\x60', '\x60'] else [d]) ↔ c = d := by
    intro d
    split_ifs with hd <;> simp [hd]
  simp [doubled, hmem]

/-- Only a name with a backtick is changed when it is doubled. -/
lemma doubled_eq_self_iff {name : List Char} : doubled name = name ↔ '\x60' ∉ name := by
  constructor
  · intro h
    have hlength := length_doubled name
    rw [h] at hlength
    exact List.count_eq_zero.mp (by omega)
  · intro h
    induction name with
    | nil => rfl
    | cons c name ih =>
        rw [List.mem_cons, not_or] at h
        rw [doubled_cons (Ne.symm h.1), ih h.2]

/-- The front of what a name covers is read to its end. It is some name with its backticks doubled,
or this and half of a pair of them. -/
lemma exists_throughBacktick_front {part a : List Char}
    (h : part <+: (throughBacktick (part ++ a)).1) :
    ∃ name, throughBacktick part = (part, name, []) ∧
      (part = doubled name ∨ part = doubled name ++ ['\x60']) := by
  obtain ⟨name, rest, rfl, rfl | ⟨after, rfl, hafter⟩⟩ := exists_doubled part
  · rw [List.append_nil]
    exact ⟨name, throughBacktick_unfinished name, .inl rfl⟩
  · cases after with
    | nil => exact ⟨name, throughBacktick_doubled name (by simp), .inr rfl⟩
    | cons c after =>
        -- the backtick would close the name before the front is over
        have hnext : (c :: after ++ a).head? ≠ some '\x60' := hafter
        rw [List.append_assoc, List.cons_append, throughBacktick_doubled name hnext,
          List.prefix_append_right_inj] at h
        have hlength := h.length_le
        simp at hlength

/-- Such a front is the name it is read as unless there is a backtick in it. -/
lemma eq_name_iff {part name : List Char}
    (h : part = doubled name ∨ part = doubled name ++ ['\x60']) : part = name ↔ '\x60' ∉ part := by
  rcases h with rfl | rfl
  · rw [doubled_eq_self_iff, mem_doubled]
  · refine iff_of_false (fun h => ?_) (by simp)
    have hlength := congrArg List.length h
    rw [List.length_append, length_doubled, List.length_singleton] at hlength
    omega

lemma scan_backtick (rest : List Char) :
    scan '\x60' rest = (⟨.identifier, '\x60' :: (throughBacktick rest).1,
      (throughBacktick rest).2.1⟩, (throughBacktick rest).2.2) := rfl

/-! ### Tokens -/

/-- A token is an identifier that a backtick opens. -/
def Token.IsQuoted (sql : String) (t : Token) : Prop :=
  t.kind = .identifier ∧ ((slice? sql.toList t.start t.stop).getD []).head? = some '\x60'

instance (sql : String) (t : Token) : Decidable (t.IsQuoted sql) :=
  inferInstanceAs (Decidable (_ ∧ _))

/-- A quoted name before other text is a token by itself. -/
lemma tokenize_quoted_append (name rest : String) (h : rest.toList.head? ≠ some '\x60') :
    tokenize (quoted name ++ rest) =
      ⟨.identifier, name, 0, (quoted name).utf8ByteSize⟩ ::
        (tokenize rest).map (Token.shift (quoted name).utf8ByteSize) := by
  have hread : lexemes (quoted name ++ rest).toList =
      ⟨.identifier, (quoted name).toList, name.toList⟩ :: lexemes rest.toList := by
    rw [String.toList_append, quoted, String.toList_ofList, List.cons_append, List.append_assoc,
      List.singleton_append, lexemes, scan_backtick, throughBacktick_doubled name.toList h]
  calc tokenize (quoted name ++ rest)
      = placeLexemes 0
          (⟨.identifier, (quoted name).toList, name.toList⟩ :: lexemes rest.toList) := by
        rw [tokenize, hread]
    _ = ⟨.identifier, name, 0, (quoted name).utf8ByteSize⟩ ::
          placeLexemes ((quoted name).utf8ByteSize + 0) (lexemes rest.toList) := by
        rw [placeLexemes_cons, Lexeme.placedAt, byteLength_toList, String.ofList_toList,
          Nat.zero_add, Nat.add_zero]
    _ = ⟨.identifier, name, 0, (quoted name).utf8ByteSize⟩ ::
          (tokenize rest).map (Token.shift (quoted name).utf8ByteSize) := by
        rw [placeLexemes_add, tokenize]

/-- A token that a backtick opens is a name: it is quoted, or goes on to the end of the query. -/
lemma quoted_of_tokenize {sql : String} {t : Token} (ht : t ∈ tokenize sql) {part : List Char}
    (hpart : slice? sql.toList t.start t.stop = some part) (htick : part.head? = some '\x60') :
    t.kind = .identifier ∧
      (String.ofList part = quoted t.value ∨
        part = '\x60' :: doubled t.value.toList ∧ t.stop = sql.utf8ByteSize) := by
  obtain ⟨before, c, inside, after, l, hsql, htext, hscan, rfl⟩ := exists_scan_of_tokenize ht
  obtain rfl : l.text = part := by
    rw [hsql] at hpart
    exact Option.some.inj ((slice?_append _ _ _).symm.trans hpart)
  obtain rfl : c = '\x60' := by
    rw [htext] at htick
    exact Option.some.inj htick
  rw [scan_backtick] at hscan
  obtain ⟨name, rest, hname, rfl | ⟨next, rfl, hnext⟩⟩ := exists_doubled (inside ++ after)
  · rw [hname, List.append_nil, throughBacktick_unfinished] at hscan
    obtain ⟨rfl, rfl⟩ := Prod.mk.inj hscan
    refine ⟨rfl, .inr ⟨by simp [Lexeme.placedAt], ?_⟩⟩
    rw [← byteLength_toList, hsql, List.append_nil, byteLength_append, Lexeme.placedAt]
  · rw [hname, throughBacktick_doubled name hnext] at hscan
    obtain ⟨rfl, -⟩ := Prod.mk.inj hscan
    exact ⟨rfl, .inl (by simp [Lexeme.placedAt, quoted])⟩

/-- **Quoting a name and reading it undo each other.** A quoted name, with any text after it that no
backtick opens, is read as one identifier that stands for the name and ends with the backtick that
closes it; the tokens of the text follow. The other way round, a token that a backtick opens is an
identifier; if another backtick closes it, it is the quoted form of what it stands for, and if none
does, it is that form without its last backtick and ends the query. -/
theorem tokenize_quoted :
    (∀ name rest : String, rest.toList.head? ≠ some '\x60' →
      tokenize (quoted name ++ rest) =
        ⟨.identifier, name, 0, (quoted name).utf8ByteSize⟩ ::
          (tokenize rest).map (Token.shift (quoted name).utf8ByteSize)) ∧
    ∀ sql : String, ∀ t ∈ tokenize sql, ∀ part, slice? sql.toList t.start t.stop = some part →
      part.head? = some '\x60' →
      t.kind = .identifier ∧
      (IsClosed part → String.ofList part = quoted t.value) ∧
      (¬IsClosed part → part = '\x60' :: doubled t.value.toList ∧ t.stop = sql.utf8ByteSize) := by
  refine ⟨tokenize_quoted_append, fun sql t ht part hpart htick => ?_⟩
  obtain ⟨hkind, hquoted | ⟨hunfinished, hend⟩⟩ := quoted_of_tokenize ht hpart htick
  · have hclosed : IsClosed part := by
      rw [← String.toList_ofList (l := part), hquoted, quoted, String.toList_ofList]
      exact isClosed_quoted _
    exact ⟨hkind, fun _ => hquoted, fun hopen => absurd hclosed hopen⟩
  · refine ⟨hkind, fun hclosed => ?_, fun _ => ⟨hunfinished, hend⟩⟩
    rw [hunfinished] at hclosed
    exact absurd hclosed (isPaired_doubled _).not_isClosed

/-- Backticks at both ends of a name, and a name that is never closed. -/
theorem tokenize_quoted_ends :
    ("x".toList.head? ≠ some '\x60' ∧
      tokenize (quoted "\x60a\x60" ++ "x") =
        ⟨.identifier, "\x60a\x60", 0, 7⟩ :: (tokenize "x").map (Token.shift 7)) ∧
    (IsClosed ['\x60', 'a', '\x60'] ∧
      String.ofList ['\x60', 'a', '\x60'] = quoted "a") ∧
    ¬IsClosed ['\x60', '\x60', '\x60'] ∧
      ['\x60', '\x60', '\x60'] = '\x60' :: doubled "\x60".toList ∧
      3 = "\x60\x60\x60".utf8ByteSize := by
  have hrest : "x".toList.head? ≠ some '\x60' := by decide
  have hclosed : IsClosed ['\x60', 'a', '\x60'] := isClosed_quoted ['a']
  have hopen : ¬IsClosed ['\x60', '\x60', '\x60'] := (isPaired_doubled ['\x60']).not_isClosed
  have hname := tokenize_quoted.2 "x.\x60a\x60" ⟨.identifier, "a", 2, 5⟩ (by decide +kernel)
    ['\x60', 'a', '\x60'] (by decide +kernel) rfl
  have hunfinished := tokenize_quoted.2 "\x60\x60\x60" ⟨.identifier, "\x60", 0, 3⟩
    (by decide +kernel) ['\x60', '\x60', '\x60'] (by decide +kernel) rfl
  exact ⟨⟨hrest, tokenize_quoted.1 _ _ hrest⟩, ⟨hclosed, hname.2.1 hclosed⟩, hopen,
    hunfinished.2.2 hopen⟩

end SqlCompletion
