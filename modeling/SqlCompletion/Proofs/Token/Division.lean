import SqlCompletion.Proofs.Token.Forms

/-!
The tokens of a query as a division of it, and the only one, into pieces of the forms of their kinds
that are each as long as they can be.

* `MayPrecede`, `IsDivision`: which pieces may stand beside each other, and the divisions of a text;
* `pieces`: the pieces that the tokens of a query cover, each with its kind;
* `EndsBefore`, `IsReadBefore`: how a piece ends where more text begins, and that it is read there;
* `endsBefore_of_scan`, `isReadBefore_of_endsBefore`: the pieces that are read are those that end
  so, rule by rule;
* `mayPrecede_iff`: before another piece, how a piece ends is a matter of the two pieces;
* `isDivision_iff`: the pieces of a query are its only division.
-/

namespace SqlCompletion

open Text

variable {c : Char} {rest a : List Char} {l : Lexeme} {p : Piece}

/-! ### Divisions -/

/-- The piece is a word that no backtick opens. -/
def Piece.IsBare (p : Piece) : Prop :=
  p.kind.isWord = true ∧ p.text.head? ≠ some '\x60'

/-- The first piece may stand right before the second one. -/
structure MayPrecede (p q : Piece) : Prop where
  /-- What nothing closes goes on to the end of the query. -/
  finished : ¬IsUnfinished p
  blanks : p.kind = .whitespace → q.kind ≠ .whitespace
  numbers : p.kind = .number → q.kind ≠ .number ∧ q.kind ≠ .dot
  operators : p.kind = .operator → q.kind ≠ .operator
  words : p.IsBare → ¬q.IsBare ∧ q.kind ≠ .number
  /-- A comment that two dashes open ends with the line. -/
  lines : p.kind = .comment → p.text.head? = some '-' → q.text.head? = some '\n'
  /-- Two backticks in the middle of a name do not end it. -/
  names : p.kind = .identifier → p.text.head? = some '\x60' → q.text.head? ≠ some '\x60'
  /-- The first two of several dashes open the comment. -/
  dashes : p.kind = .operator → p.text.getLast? = some '-' → q.text.head? ≠ some '-'

/-- Pieces that make up a text, each of the form of its kind, and none of them shorter than it might
be. -/
structure IsDivision (cs : List Char) (ps : List Piece) : Prop where
  covers : ps.flatMap Piece.text = cs
  formed : ∀ p ∈ ps, IsComplete p ∨ IsUnfinished p
  chain : ps.IsChain MayPrecede

/-- The pieces that the tokens of a query cover. -/
def pieces (sql : String) : List Piece :=
  (tokenize sql).map fun t => ⟨t.kind, (slice? sql.toList t.start t.stop).getD []⟩

/-- A lexeme without what it stands for. -/
def Lexeme.piece (l : Lexeme) : Piece :=
  ⟨l.kind, l.text⟩

lemma pieces_eq (sql : String) : pieces sql = (lexemes sql.toList).map Lexeme.piece := by
  have hslices := congrArg (List.map fun piece => (⟨piece.1, piece.2.getD []⟩ : Piece))
    (map_slice?_placeLexemes [] (lexemes sql.toList))
  rwa [List.nil_append, covered_lexemes, List.map_map, List.map_map] at hslices

lemma flatMap_text_map_piece (ls : List Lexeme) :
    (ls.map Lexeme.piece).flatMap Piece.text = covered ls := by
  rw [List.flatMap_map]
  rfl

/-! ### The rule that applies -/

/-- No other rule of the lexer applies to a digit. -/
lemma scan_of_isDigit (h : c.isDigit = true) (rest : List Char) :
    scan c rest = (.plain .number (c :: (frontRun isNumberChar rest).1),
      (frontRun isNumberChar rest).2) := by
  have hne : ∀ d : Char, d.isDigit = false → c ≠ d := by
    rintro d hd rfl
    simp [hd] at h
  have hblank : isBlank c = false := by
    simp [isBlank, hne ' ' rfl, hne '\t' rfl, hne '\n' rfl, hne '\x0c' rfl, hne '\r' rfl]
  simp [scan, hblank, opensLineComment_cons, opensBlockComment_cons, hne '-' rfl, hne '/' rfl,
    hne '\x27' rfl, hne '\x22' rfl, hne '\x60' rfl, h]

lemma scan_of_isQuote (h : IsQuote c) (rest : List Char) :
    scan c rest = (.plain .string (c :: (throughQuote c rest).1), (throughQuote c rest).2) := by
  rcases h with rfl | rfl <;> rfl

lemma scan_line (rest : List Char) :
    scan '-' ('-' :: rest) = (.plain .comment ('-' :: (frontRun (· ≠ '\n') ('-' :: rest)).1),
      (frontRun (· ≠ '\n') ('-' :: rest)).2) := rfl

lemma scan_block (rest : List Char) :
    scan '/' ('*' :: rest) = (.plain .comment ('/' :: '*' :: (throughBlockEnd rest).1),
      (throughBlockEnd rest).2) := rfl

lemma scan_of_isLone (h : IsLone c) (rest : List Char) :
    scan c rest = (.plain .unknown [c], rest) := by
  have hne : ∀ d : Char, isOperatorChar d = true → c ≠ d := by
    rintro d hd rfl
    rw [h.operator] at hd
    cases hd
  obtain ⟨htick, hdot, hcomma, hopen, hclose⟩ :
      c ≠ '\x60' ∧ c ≠ '.' ∧ c ≠ ',' ∧ c ≠ '(' ∧ c ≠ ')' := by simpa using h.mark
  obtain ⟨hsingle, hdouble⟩ : c ≠ '\x27' ∧ c ≠ '\x22' := not_or.mp h.quote
  simp [scan, h.blank, opensLineComment_cons, opensBlockComment_cons, hne '-' rfl, hne '/' rfl,
    hsingle, hdouble, htick, h.digit, punctuation?, hdot, hcomma, hopen, hclose, h.operator, h.word]

lemma isLone_of_scan (h : scan c rest = (l, a)) (hkind : l.kind = .unknown) : IsLone c := by
  have hword : opensWord c = false := by
    by_contra hword
    rw [scan_of_opensWord (by simpa using hword)] at h
    obtain ⟨rfl, -⟩ := Prod.mk.inj h
    exact wordKind_ne_of_isWord rfl _ hkind
  have hmark : punctuation? c = none := by
    by_contra hmark
    obtain ⟨kind, hmark⟩ := Option.ne_none_iff_exists'.mp hmark
    rw [scan_of_punctuation? hmark] at h
    obtain ⟨rfl, -⟩ := Prod.mk.inj h
    exact kind_ne_of_punctuation? hmark (by decide) hkind
  rw [scan] at h
  simp only [hmark, hword, Bool.false_eq_true, if_false] at h
  split_ifs at h with hblank hline hblock hquote htick hdigit hoperator
  case neg =>
    refine ⟨by simpa using hblank, by simpa using hdigit, by simpa using hoperator, hword,
      by simpa [IsQuote] using hquote, ?_⟩
    rw [punctuation?] at hmark
    split_ifs at hmark with hdot hcomma hopen hclose
    simp [htick, hdot, hcomma, hopen, hclose]
  all_goals
    obtain ⟨rfl, -⟩ := Prod.mk.inj h
    cases hkind

/-! ### Where a piece ends -/

/-- The text after a piece does not go on with it. -/
def StopsBefore (p : Piece) (after : List Char) : Prop :=
  match p.kind with
  | .whitespace => ∀ c ∈ after.head?, isBlank c = false
  | .number => ∀ c ∈ after.head?, isNumberChar c = false
  | .operator =>
    (operatorRun after).1 = [] ∧ (p.text.getLast? = some '-' → after.head? ≠ some '-')
  | .comment => p.text.head? = some '-' → ∀ c ∈ after.head?, c = '\n'
  | .keyword _ => p.text.head? ≠ some '\x60' → ∀ c ∈ after.head?, isWordChar c = false
  | .identifier =>
    if p.text.head? = some '\x60' then after.head? ≠ some '\x60'
    else ∀ c ∈ after.head?, isWordChar c = false
  | _ => True

/-- The piece ends by itself where the text after it begins, or is ended by the end of the text. -/
inductive EndsBefore (p : Piece) (after : List Char) : Prop
  | complete (h : IsComplete p) (hstop : StopsBefore p after)
  | unfinished (h : IsUnfinished p) (hend : after = [])

lemma endsBefore_blanks (hc : isBlank c = true) (rest : List Char) :
    EndsBefore ⟨.whitespace, c :: (frontRun isBlank rest).1⟩ (frontRun isBlank rest).2 := by
  obtain ⟨-, hrun, hstop⟩ := frontRun_eq_iff.mp (rfl : frontRun isBlank rest = (_, _))
  exact .complete (.blanks (List.cons_ne_nil _ _) (List.forall_mem_cons.mpr ⟨hc, hrun⟩)) hstop

lemma endsBefore_number (hc : c.isDigit = true) (rest : List Char) :
    EndsBefore ⟨.number, c :: (frontRun isNumberChar rest).1⟩ (frontRun isNumberChar rest).2 := by
  obtain ⟨-, hrun, hstop⟩ := frontRun_eq_iff.mp (rfl : frontRun isNumberChar rest = (_, _))
  exact .complete (.number hc hrun) hstop

lemma endsBefore_line (rest : List Char) :
    EndsBefore ⟨.comment, '-' :: '-' :: (frontRun (· ≠ '\n') rest).1⟩
      (frontRun (· ≠ '\n') rest).2 := by
  obtain ⟨-, hrun, hstop⟩ := frontRun_eq_iff.mp (rfl : frontRun (· ≠ '\n') rest = (_, _))
  refine .complete (.line fun hnewline => ?_) fun _ c hc => ?_
  · simpa using hrun _ hnewline
  · simpa using hstop c hc

lemma endsBefore_block (rest : List Char) :
    EndsBefore ⟨.comment, '/' :: '*' :: (throughBlockEnd rest).1⟩ (throughBlockEnd rest).2 := by
  rcases exists_first_blockEnd rest with hnone | ⟨inside, after, rfl, hfirst⟩
  · rw [throughBlockEnd_of_none hnone]
    exact .unfinished (.block hnone) rfl
  · rw [throughBlockEnd_of_first hfirst]
    exact .complete (.block hfirst) fun hhead => by simp at hhead

lemma endsBefore_literal (hc : IsQuote c) (rest : List Char) :
    EndsBefore ⟨.string, c :: (throughQuote c rest).1⟩ (throughQuote c rest).2 := by
  obtain ⟨inside, rest, rfl, hinside, hrest⟩ := exists_isInside c rest
  rw [hinside.throughQuote_append]
  rcases hrest with rfl | rfl | ⟨after, rfl⟩
  · rw [throughQuote, List.append_nil]
    exact .unfinished (.literal hc hinside) rfl
  · rw [throughQuote_cons, if_pos rfl]
    exact .unfinished (.escape hc hinside) rfl
  · rw [throughQuote_cons, if_neg hc.ne_backslash, if_pos rfl]
    exact .complete (.literal hc hinside) trivial

lemma endsBefore_name (rest : List Char) :
    EndsBefore ⟨.identifier, '\x60' :: (throughBacktick rest).1⟩ (throughBacktick rest).2.2 := by
  obtain ⟨name, rest, rfl, rfl | ⟨after, rfl, hafter⟩⟩ := exists_doubled rest
  · rw [List.append_nil, throughBacktick_unfinished]
    exact .unfinished (.name (isPaired_doubled name)) rfl
  · rw [throughBacktick_doubled name hafter]
    exact .complete (.name (isPaired_doubled name)) hafter

lemma endsBefore_mark {kind : TokenKind} (h : punctuation? c = some kind) (rest : List Char) :
    EndsBefore ⟨kind, [c]⟩ rest := by
  rw [punctuation?] at h
  split_ifs at h with hdot hcomma hopen hclose
  all_goals
    subst c
    cases h
  · exact .complete .dot trivial
  · exact .complete .comma trivial
  · exact .complete .parenOpen trivial
  · exact .complete .parenClose trivial

lemma endsBefore_operator (hc : isOperatorChar c = true)
    (hline : opensLineComment (c :: rest) = false)
    (hblock : opensBlockComment (c :: rest) = false) :
    EndsBefore ⟨.operator, c :: (operatorRun rest).1⟩ (operatorRun rest).2 := by
  obtain ⟨hchars, hlines, hblocks, hend⟩ := operatorRun_spec (c :: rest)
  have hrun : operatorRun (c :: rest) = (c :: (operatorRun rest).1, (operatorRun rest).2) := by
    rw [operatorRun_cons, hc, hline, hblock]
    rfl
  rw [hrun] at hchars hlines hblocks hend
  rw [pair_infix_append_head?, not_or] at hlines hblocks
  exact .complete (.operator (List.cons_ne_nil _ _) hchars hlines.1 hblocks.1)
    ⟨hend, fun hlast hhead => hlines.2 ⟨hlast, hhead⟩⟩

lemma stopsBefore_word_iff {cs : List Char} (h : IsWord cs) :
    StopsBefore ⟨wordKind cs, cs⟩ a ↔ ∀ c ∈ a.head?, isWordChar c = false := by
  have htick : cs.head? ≠ some '\x60' := by
    cases cs with
    | nil => exact absurd h id
    | cons c cs => simpa using ne_of_opensWord h.1 rfl
  rcases wordKind_cases cs with hkind | ⟨k, hkind⟩
  · rw [hkind, StopsBefore, if_neg htick]
  · rw [hkind, StopsBefore, forall_prop_of_true htick]

lemma endsBefore_word (hc : opensWord c = true) (rest : List Char) :
    EndsBefore ⟨wordKind (c :: (frontRun isWordChar rest).1), c :: (frontRun isWordChar rest).1⟩
      (frontRun isWordChar rest).2 := by
  obtain ⟨-, hrun, hstop⟩ := frontRun_eq_iff.mp (rfl : frontRun isWordChar rest = (_, _))
  have hword : IsWord (c :: (frontRun isWordChar rest).1) := ⟨hc, hrun⟩
  refine .complete ?_ ((stopsBefore_word_iff hword).mpr hstop)
  rcases wordKind_cases (c :: (frontRun isWordChar rest).1) with hkind | ⟨k, hkind⟩
  · rw [hkind]
    exact .word hword (wordKind_eq_identifier_iff_forall.mp hkind)
  · rw [hkind]
    exact .keyword hword (wordKind_eq_keyword_iff.mp hkind)

/-- What is read first ends where the rest begins. -/
lemma endsBefore_of_scan (h : scan c rest = (l, a)) : EndsBefore l.piece a := by
  cases reads_of_scan h with
  | blanks hc => exact endsBefore_blanks hc rest
  | line hopen =>
      rw [opensLineComment_cons, Bool.and_eq_true, decide_eq_true_eq, decide_eq_true_eq] at hopen
      obtain ⟨rfl, hrest⟩ := hopen
      obtain ⟨rest, rfl⟩ := List.head?_eq_some_iff.mp hrest
      exact endsBefore_line rest
  | block hopen =>
      rw [opensBlockComment_cons, Bool.and_eq_true, decide_eq_true_eq, decide_eq_true_eq] at hopen
      obtain ⟨rfl, -⟩ := hopen
      exact endsBefore_block rest.tail
  | literal hc => exact endsBefore_literal hc rest
  | name hc =>
      subst hc
      exact endsBefore_name rest
  | number hc => exact endsBefore_number hc rest
  | mark hc => exact endsBefore_mark hc rest
  | operator hc hline hblock => exact endsBefore_operator hc hline hblock
  | word hc => exact endsBefore_word hc rest
  | other => exact .complete (.lone (isLone_of_scan h rfl)) trivial

/-! ### Reading a piece that ends so -/

/-- Before the text the piece is read as the first one, and the text is left. -/
def IsReadBefore (p : Piece) (after : List Char) : Prop :=
  ∃ l, l.piece = p ∧ lexemes (p.text ++ after) = l :: lexemes after

lemma isReadBefore_of_scan {part : List Char} (h : scan c (part ++ a) = (l, a))
    (htext : l.text = c :: part) : IsReadBefore l.piece a := by
  refine ⟨l, rfl, ?_⟩
  rw [Lexeme.piece, htext, List.cons_append, lexemes, h]

lemma isReadBefore_blanks {cs : List Char} (hne : cs ≠ []) (h : ∀ c ∈ cs, isBlank c = true)
    (hstop : ∀ c ∈ a.head?, isBlank c = false) : IsReadBefore ⟨.whitespace, cs⟩ a := by
  obtain ⟨c, part, rfl⟩ := List.exists_cons_of_ne_nil hne
  obtain ⟨hc, hpart⟩ := List.forall_mem_cons.mp h
  have hrun : frontRun isBlank (part ++ a) = (part, a) := frontRun_eq_iff.mpr ⟨rfl, hpart, hstop⟩
  have hscan : scan c (part ++ a) = (.plain .whitespace (c :: part), a) := by
    rw [scan, if_pos hc, hrun]
  exact isReadBefore_of_scan hscan rfl

lemma isReadBefore_number {cs : List Char} (hc : c.isDigit = true)
    (h : ∀ d ∈ cs, isNumberChar d = true) (hstop : ∀ d ∈ a.head?, isNumberChar d = false) :
    IsReadBefore ⟨.number, c :: cs⟩ a := by
  have hrun : frontRun isNumberChar (cs ++ a) = (cs, a) := frontRun_eq_iff.mpr ⟨rfl, h, hstop⟩
  have hscan : scan c (cs ++ a) = (.plain .number (c :: cs), a) := by rw [scan_of_isDigit hc, hrun]
  exact isReadBefore_of_scan hscan rfl

lemma isReadBefore_line {cs : List Char} (h : '\n' ∉ cs) (hstop : ∀ c ∈ a.head?, c = '\n') :
    IsReadBefore ⟨.comment, '-' :: '-' :: cs⟩ a := by
  have hrun : frontRun (· ≠ '\n') ('-' :: (cs ++ a)) = ('-' :: cs, a) := by
    refine frontRun_eq_iff.mpr ⟨rfl, List.forall_mem_cons.mpr ⟨rfl, fun c hc => ?_⟩, fun c hc => ?_⟩
    · simpa using ne_of_mem_of_not_mem hc h
    · simpa using hstop c hc
  have hscan : scan '-' ('-' :: cs ++ a) = (.plain .comment ('-' :: '-' :: cs), a) := by
    rw [List.cons_append, scan_line, hrun]
  exact isReadBefore_of_scan hscan rfl

lemma isReadBefore_block {inside : List Char} (h : ¬['*', '/'] <:+: inside ++ ['*'])
    (a : List Char) : IsReadBefore ⟨.comment, '/' :: '*' :: (inside ++ ['*', '/'])⟩ a := by
  have hscan : scan '/' ('*' :: (inside ++ ['*', '/']) ++ a) =
      (.plain .comment ('/' :: '*' :: (inside ++ ['*', '/'])), a) := by
    rw [List.cons_append, List.append_assoc, scan_block, List.cons_append, List.cons_append,
      List.nil_append, throughBlockEnd_of_first h]
  exact isReadBefore_of_scan hscan rfl

lemma isReadBefore_literal {inside : List Char} (hc : IsQuote c) (h : IsInside c inside)
    (a : List Char) : IsReadBefore ⟨.string, c :: (inside ++ [c])⟩ a := by
  have hscan : scan c (inside ++ [c] ++ a) = (.plain .string (c :: (inside ++ [c])), a) := by
    rw [List.append_assoc, List.singleton_append, scan_of_isQuote hc, h.throughQuote_append,
      throughQuote_cons, if_neg hc.ne_backslash, if_pos rfl]
  exact isReadBefore_of_scan hscan rfl

lemma isReadBefore_name {inside : List Char} (h : IsPaired inside)
    (hstop : a.head? ≠ some '\x60') :
    IsReadBefore ⟨.identifier, '\x60' :: (inside ++ ['\x60'])⟩ a := by
  obtain ⟨name, rfl⟩ := h.exists_eq_doubled
  have hscan : scan '\x60' (doubled name ++ ['\x60'] ++ a) =
      (⟨.identifier, '\x60' :: (doubled name ++ ['\x60']), name⟩, a) := by
    rw [List.append_assoc, List.singleton_append, scan_backtick, throughBacktick_doubled name hstop]
  exact isReadBefore_of_scan hscan rfl

lemma isReadBefore_mark {kind : TokenKind} (h : punctuation? c = some kind) (a : List Char) :
    IsReadBefore ⟨kind, [c]⟩ a :=
  isReadBefore_of_scan (scan_of_punctuation? h ([] ++ a)) rfl

lemma isReadBefore_operator {cs : List Char} (hne : cs ≠ [])
    (h : ∀ c ∈ cs, isOperatorChar c = true) (hline : ¬['-', '-'] <:+: cs)
    (hblock : ¬['/', '*'] <:+: cs) (hend : (operatorRun a).1 = [])
    (hdash : cs.getLast? = some '-' → a.head? ≠ some '-') : IsReadBefore ⟨.operator, cs⟩ a := by
  obtain ⟨c, part, rfl⟩ := List.exists_cons_of_ne_nil hne
  obtain ⟨hc, hpart⟩ := List.forall_mem_cons.mp h
  have hlines : ¬['-', '-'] <:+: c :: part ++ a.head?.toList := by
    rw [pair_infix_append_head?, not_or]
    exact ⟨hline, fun hlast => hdash hlast.1 hlast.2⟩
  have hblocks : ¬['/', '*'] <:+: c :: part ++ a.head?.toList := by
    rw [pair_infix_append_head?, not_or]
    refine ⟨hblock, fun hlast => ?_⟩
    -- what begins with a star would be a run of operators
    obtain ⟨more, rfl⟩ := List.head?_eq_some_iff.mp hlast.2
    rw [operatorRun_cons, opensLineComment_cons, opensBlockComment_cons] at hend
    simp [isOperatorChar] at hend
  rw [List.cons_append, pair_infix_cons, not_or, head?_append_head?] at hlines hblocks
  have hafter : (operatorRun a).2 = a := by simpa [hend] using operatorRun_append a
  have hrun : operatorRun (part ++ a) = (part, a) := by
    rw [operatorRun_append_of_apart hpart hlines.2 hblocks.2, hend, hafter, List.append_nil]
  have hscan : scan c (part ++ a) = (.plain .operator (c :: part), a) := by
    rw [scan_of_operatorChar hc, hrun]
    · rw [opensLineComment_cons]
      simpa using hlines.1
    · rw [opensBlockComment_cons]
      simpa using hblocks.1
  exact isReadBefore_of_scan hscan rfl

lemma isReadBefore_word {cs : List Char} (h : IsWord cs)
    (hstop : StopsBefore ⟨wordKind cs, cs⟩ a) : IsReadBefore ⟨wordKind cs, cs⟩ a := by
  cases cs with
  | nil => exact absurd h id
  | cons c part => exact isReadBefore_of_scan (scan_word h ((stopsBefore_word_iff h).mp hstop)) rfl

/-- An unfinished piece is read to the end of the text. -/
lemma isReadBefore_of_isUnfinished (h : IsUnfinished p) : IsReadBefore p [] := by
  cases h with
  | @block inside hnone =>
      have hscan : scan '/' ('*' :: inside ++ []) =
          (.plain .comment ('/' :: '*' :: inside), []) := by
        rw [List.append_nil, scan_block, throughBlockEnd_of_none hnone]
      exact isReadBefore_of_scan hscan rfl
  | @literal quote inside hquote hinside =>
      have hscan : scan quote (inside ++ []) = (.plain .string (quote :: inside), []) := by
        rw [scan_of_isQuote hquote, hinside.throughQuote_append, throughQuote, List.append_nil]
      exact isReadBefore_of_scan hscan rfl
  | @escape quote inside hquote hinside =>
      have hscan : scan quote (inside ++ ['\\'] ++ []) =
          (.plain .string (quote :: (inside ++ ['\\'])), []) := by
        rw [List.append_nil, scan_of_isQuote hquote, hinside.throughQuote_append,
          throughQuote_cons, if_pos rfl]
      exact isReadBefore_of_scan hscan rfl
  | @name inside hinside =>
      obtain ⟨name, rfl⟩ := hinside.exists_eq_doubled
      have hscan : scan '\x60' (doubled name ++ []) =
          (⟨.identifier, '\x60' :: doubled name, name⟩, []) := by
        rw [List.append_nil, scan_backtick, throughBacktick_unfinished]
      exact isReadBefore_of_scan hscan rfl

/-- A piece that ends where a text begins is what is read before it. -/
lemma isReadBefore_of_endsBefore (h : EndsBefore p a) : IsReadBefore p a := by
  rcases h with ⟨hcomplete, hstop⟩ | ⟨hopen, rfl⟩
  · cases hcomplete with
    | blanks hne hblanks => exact isReadBefore_blanks hne hblanks hstop
    | line hline => exact isReadBefore_line hline (hstop rfl)
    | block hfirst => exact isReadBefore_block hfirst a
    | literal hquote hinside => exact isReadBefore_literal hquote hinside a
    | name hinside => exact isReadBefore_name hinside hstop
    | number hc hcs => exact isReadBefore_number hc hcs hstop
    | dot => exact isReadBefore_mark rfl a
    | comma => exact isReadBefore_mark rfl a
    | parenOpen => exact isReadBefore_mark rfl a
    | parenClose => exact isReadBefore_mark rfl a
    | operator hne hchars hline hblock =>
        exact isReadBefore_operator hne hchars hline hblock hstop.1 hstop.2
    | keyword hword hk =>
        rw [← wordKind_eq_keyword_iff.mpr hk] at hstop ⊢
        exact isReadBefore_word hword hstop
    | word hword hk =>
        rw [← wordKind_eq_identifier_iff_forall.mpr hk] at hstop ⊢
        exact isReadBefore_word hword hstop
    | lone hc => exact isReadBefore_of_scan (scan_of_isLone hc ([] ++ a)) rfl
  · exact isReadBefore_of_isUnfinished hopen

/-! ### Pieces beside each other -/

lemma kind_eq_whitespace_iff (h : scan c rest = (l, a)) :
    l.kind = .whitespace ↔ isBlank c = true := by
  constructor
  · intro hkind
    cases reads_of_scan h with
    | blanks hc => exact hc
    | mark hmark => exact absurd hkind (kind_ne_of_punctuation? hmark (by decide))
    | word _ => exact absurd hkind (wordKind_ne_of_isWord rfl _)
    | _ => cases hkind
  · intro hc
    rw [scan, if_pos hc] at h
    obtain ⟨rfl, -⟩ := Prod.mk.inj h
    rfl

lemma kind_eq_number_iff (h : scan c rest = (l, a)) : l.kind = .number ↔ c.isDigit = true := by
  constructor
  · intro hkind
    cases reads_of_scan h with
    | number hc => exact hc
    | mark hmark => exact absurd hkind (kind_ne_of_punctuation? hmark (by decide))
    | word _ => exact absurd hkind (wordKind_ne_of_isWord rfl _)
    | _ => cases hkind
  · intro hc
    rw [scan_of_isDigit hc] at h
    obtain ⟨rfl, -⟩ := Prod.mk.inj h
    rfl

lemma kind_eq_operator_iff (h : scan c rest = (l, a)) :
    l.kind = .operator ↔ (operatorRun (c :: rest)).1 ≠ [] := by
  constructor
  · intro hkind
    obtain ⟨hc, hline, hblock⟩ := opens_of_operator h hkind
    rw [operatorRun_cons, hc, hline, hblock]
    exact List.cons_ne_nil _ _
  · intro hrun
    rw [operatorRun_cons] at hrun
    split_ifs at hrun with hc
    · simp only [Bool.and_eq_true, Bool.not_eq_true'] at hc
      rw [scan_of_operatorChar hc.1.1 hc.1.2 hc.2] at h
      obtain ⟨rfl, -⟩ := Prod.mk.inj h
      rfl
    · exact absurd rfl hrun

lemma isBare_piece_iff (h : scan c rest = (l, a)) : l.piece.IsBare ↔ opensWord c = true := by
  constructor
  · rintro ⟨hword, htick⟩
    cases reads_of_scan h with
    | word hc => exact hc
    | name hc => exact absurd (congrArg some hc) htick
    | mark hmark =>
        rcases kind_of_punctuation? hmark with rfl | rfl | rfl | rfl <;> cases hword
    | _ => cases hword
  · intro hc
    rw [scan_of_opensWord hc] at h
    obtain ⟨rfl, -⟩ := Prod.mk.inj h
    exact ⟨isWord_wordKind _, by simpa [Lexeme.piece, Lexeme.plain] using ne_of_opensWord hc rfl⟩

lemma head?_text_of_scan (h : scan c rest = (l, a)) : l.text.head? = some c := by
  obtain ⟨more, htext, -⟩ := scan_append c rest
  rw [h] at htext
  rw [htext]
  rfl

/-- A number goes on where a number or a dot is read. -/
lemma isNumberChar_eq_false_iff (h : scan c rest = (l, a)) :
    isNumberChar c = false ↔ l.kind ≠ .number ∧ l.kind ≠ .dot := by
  rw [← Bool.not_eq_true, isNumberChar, Bool.or_eq_true, decide_eq_true_eq,
    ← kind_eq_number_iff h, ← kind_eq_dot_iff h, not_or]

/-- A word goes on where a bare word or a number is read. -/
lemma isWordChar_eq_false_iff (h : scan c rest = (l, a)) :
    isWordChar c = false ↔ ¬l.piece.IsBare ∧ l.kind ≠ .number := by
  have hsplit : isWordChar c = (opensWord c || c.isDigit) := by
    rw [isWordChar, opensWord, Char.isAlphanum, Bool.or_right_comm]
  rw [← Bool.not_eq_true, hsplit, Bool.or_eq_true, ← isBare_piece_iff h, ← kind_eq_number_iff h,
    not_or]

/-- Where another piece is read after a piece, the piece ends there by itself if the two may stand
beside each other. -/
lemma mayPrecede_iff (h : scan c rest = (l, a)) :
    MayPrecede p l.piece ↔ ¬IsUnfinished p ∧ StopsBefore p (c :: rest) := by
  have hhead : l.piece.text.head? = some c := head?_text_of_scan h
  have hblank : isBlank c = false ↔ l.kind ≠ .whitespace := by
    rw [← Bool.not_eq_true, ← kind_eq_whitespace_iff h]
  have hoperator : (operatorRun (c :: rest)).1 = [] ↔ l.kind ≠ .operator := by
    rw [Ne, kind_eq_operator_iff h, not_not]
  -- what the next character must not be is what the next piece must not be
  simp only [StopsBefore, List.head?_cons, Option.mem_def, Option.some.injEq, forall_eq', hblank,
    hoperator, isNumberChar_eq_false_iff h, isWordChar_eq_false_iff h]
  constructor
  · intro hpq
    have hlines := hpq.lines
    have hnames := hpq.names
    have hdashes := hpq.dashes
    rw [hhead] at hlines hnames hdashes
    refine ⟨hpq.finished, ?_⟩
    cases hkind : p.kind with
    | whitespace => exact hpq.blanks hkind
    | number => exact hpq.numbers hkind
    | operator => exact ⟨hpq.operators hkind, hdashes hkind⟩
    | comment => exact fun hdash => Option.some.inj (hlines hkind hdash)
    | identifier =>
        split_ifs with htick
        · exact hnames hkind htick
        · exact hpq.words ⟨by rw [hkind]; rfl, htick⟩
    | keyword k => exact fun htick => hpq.words ⟨by rw [hkind]; rfl, htick⟩
    | _ => trivial
  · rintro ⟨hfinished, hstop⟩
    constructor
    case finished => exact hfinished
    case blanks =>
      intro hkind
      rwa [hkind] at hstop
    case numbers =>
      intro hkind
      rwa [hkind] at hstop
    case operators =>
      intro hkind
      rw [hkind] at hstop
      exact hstop.1
    case words =>
      rintro ⟨hword, htick⟩
      cases hkind : p.kind with
      | keyword k =>
          rw [hkind] at hstop
          exact hstop htick
      | identifier =>
          rw [hkind] at hstop
          exact (if_neg htick).mp hstop
      | _ =>
          rw [hkind] at hword
          cases hword
    case lines =>
      intro hkind hdash
      rw [hkind] at hstop
      rw [hhead, hstop hdash]
    case names =>
      intro hkind htick
      rw [hkind] at hstop
      rw [hhead]
      exact (if_pos htick).mp hstop
    case dashes =>
      intro hkind hlast
      rw [hkind] at hstop
      rw [hhead]
      exact hstop.2 hlast

/-! ### The whole query -/

lemma stopsBefore_nil (p : Piece) : StopsBefore p [] := by
  rw [StopsBefore]
  split <;> simp [operatorRun]

lemma EndsBefore.formed (h : EndsBefore p a) : IsComplete p ∨ IsUnfinished p := by
  rcases h with ⟨h, -⟩ | ⟨h, -⟩
  · exact .inl h
  · exact .inr h

/-- Before more text a piece ends by itself. -/
lemma EndsBefore.stopsBefore_cons (h : EndsBefore p (c :: rest)) :
    ¬IsUnfinished p ∧ StopsBefore p (c :: rest) := by
  rcases h with ⟨hcomplete, hstop⟩ | ⟨-, hend⟩
  · exact ⟨hcomplete.not_isUnfinished, hstop⟩
  · cases hend

/-- What is read one after the other is a division. -/
lemma isDivision_map_piece {ls : List Lexeme} (h : lexemes (covered ls) = ls) :
    IsDivision (covered ls) (ls.map Lexeme.piece) := by
  induction ls with
  | nil => exact ⟨rfl, by simp, .nil⟩
  | cons l ls ih =>
      obtain ⟨c, part, -, hscan, hls⟩ := exists_scan_of_lexemes h
      obtain ⟨-, hformed, hchain⟩ := ih hls
      have hends := endsBefore_of_scan hscan
      refine ⟨flatMap_text_map_piece _, List.forall_mem_cons.mpr ⟨hends.formed, hformed⟩, ?_⟩
      refine List.isChain_cons.mpr ⟨fun q hq => ?_, hchain⟩
      cases ls with
      | nil => simp at hq
      | cons next ls =>
          obtain rfl : next.piece = q := by simpa using hq
          obtain ⟨d, more, htext, hnext, -⟩ := exists_scan_of_lexemes hls
          rw [covered_cons, htext, List.cons_append] at hends
          exact (mayPrecede_iff hnext).mpr hends.stopsBefore_cons

/-- The pieces of a division are read one after the other. -/
lemma map_piece_of_isDivision {cs : List Char} {ps : List Piece} (h : IsDivision cs ps) :
    (lexemes cs).map Lexeme.piece = ps := by
  induction ps generalizing cs with
  | nil =>
      obtain rfl : [] = cs := h.covers
      rw [lexemes, List.map_nil]
  | cons p ps ih =>
      obtain ⟨rfl, hformed, hchain⟩ := h
      obtain ⟨hp, hps⟩ := List.forall_mem_cons.mp hformed
      obtain ⟨hnext, hrest⟩ := List.isChain_cons.mp hchain
      have hread := ih ⟨rfl, hps, hrest⟩
      -- the piece that is read next tells how this one ends
      have hends : EndsBefore p (ps.flatMap Piece.text) := by
        cases htext : ps.flatMap Piece.text with
        | nil =>
            rcases hp with hp | hp
            · exact .complete hp (stopsBefore_nil p)
            · exact .unfinished hp rfl
        | cons c rest =>
            rw [htext, lexemes, List.map_cons] at hread
            have hfirst : (scan c rest).1.piece ∈ ps.head? := by rw [← hread]; rfl
            obtain ⟨hfinished, hstop⟩ := (mayPrecede_iff rfl).mp (hnext _ hfirst)
            exact .complete (hp.resolve_right hfinished) hstop
      obtain ⟨l, rfl, hl⟩ := isReadBefore_of_endsBefore hends
      rw [List.flatMap_cons, hl, List.map_cons, hread]

/-- **Tokens have the forms of their kinds and go on for as long as they can.** The pieces that the
tokens of a query cover make up the query, each of them has the form of its kind, and each may stand
before the next one. No other pieces are such a division of the query. -/
theorem isDivision_iff (sql : String) (ps : List Piece) :
    IsDivision sql.toList ps ↔ ps = pieces sql := by
  rw [pieces_eq]
  constructor
  · exact fun h => (map_piece_of_isDivision h).symm
  · rintro rfl
    have hdivision : IsDivision (covered (lexemes sql.toList)) _ :=
      isDivision_map_piece (by rw [covered_lexemes])
    rwa [covered_lexemes] at hdivision

/-- An operator ends where a comment opens, and a number does not end at a dot. -/
example : pieces "a<=/**/1.." =
    [⟨.identifier, ['a']⟩, ⟨.operator, ['<', '=']⟩, ⟨.comment, ['/', '*', '*', '/']⟩,
      ⟨.number, ['1', '.', '.']⟩] := by
  decide +kernel

end SqlCompletion
