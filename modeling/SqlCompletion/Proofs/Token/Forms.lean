import SqlCompletion.Proofs.Token.Quoting
import SqlCompletion.Proofs.Token.Insertion

/-!
The forms of the pieces of a query, one for each kind, and how the lexer reads texts of these forms.

* `Piece`: a piece of a query, with its kind;
* `IsComplete`, `IsUnfinished`: the forms of pieces that end by themselves, and of those that only
  the end of the query ends;
* `IsComplete.not_isUnfinished`: no piece is of both;
* `exists_first_blockEnd`, `throughBlockEnd_of_first`, `throughBlockEnd_of_none`: block comments;
* `exists_isInside`, `IsInside.throughQuote_append`: literals;
* `operatorRun_spec`, `operatorRun_append_of_apart`: runs of operators.
-/

namespace SqlCompletion

open Text

/-! ### Forms -/

/-- A text between the quotes of a literal: a backslash takes the character after it along, and the
quote stands after a backslash only. -/
inductive IsInside (quote : Char) : List Char → Prop
  | nil : IsInside quote []
  | escape {d : Char} {cs : List Char} (h : IsInside quote cs) : IsInside quote ('\\' :: d :: cs)
  | plain {c : Char} {cs : List Char} (hslash : c ≠ '\\') (hquote : c ≠ quote)
      (h : IsInside quote cs) : IsInside quote (c :: cs)

/-- The two quotes of literals. -/
def IsQuote (c : Char) : Prop :=
  c = '\x27' ∨ c = '\x22'

/-- A character that begins no piece of another kind. -/
structure IsLone (c : Char) : Prop where
  blank : isBlank c = false
  digit : c.isDigit = false
  operator : isOperatorChar c = false
  word : opensWord c = false
  quote : ¬IsQuote c
  mark : c ∉ ['\x60', '.', ',', '(', ')']

/-- A piece of a query: what it is, and its characters. -/
structure Piece where
  kind : TokenKind
  text : List Char
  deriving DecidableEq, Repr

/-- The pieces that may end before the query does: runs of characters, what is closed, and single
characters. -/
inductive IsComplete : Piece → Prop
  | blanks {cs : List Char} (hne : cs ≠ []) (h : ∀ c ∈ cs, isBlank c = true) :
      IsComplete ⟨.whitespace, cs⟩
  | line {cs : List Char} (h : '\n' ∉ cs) : IsComplete ⟨.comment, '-' :: '-' :: cs⟩
  | block {inside : List Char} (h : ¬['*', '/'] <:+: inside ++ ['*']) :
      IsComplete ⟨.comment, '/' :: '*' :: (inside ++ ['*', '/'])⟩
  | literal {quote : Char} {inside : List Char} (hquote : IsQuote quote)
      (h : IsInside quote inside) : IsComplete ⟨.string, quote :: (inside ++ [quote])⟩
  | name {inside : List Char} (h : IsPaired inside) :
      IsComplete ⟨.identifier, '\x60' :: (inside ++ ['\x60'])⟩
  | number {c : Char} {cs : List Char} (hc : c.isDigit = true)
      (h : ∀ d ∈ cs, isNumberChar d = true) : IsComplete ⟨.number, c :: cs⟩
  | dot : IsComplete ⟨.dot, ['.']⟩
  | comma : IsComplete ⟨.comma, [',']⟩
  | parenOpen : IsComplete ⟨.parenOpen, ['(']⟩
  | parenClose : IsComplete ⟨.parenClose, [')']⟩
  | operator {cs : List Char} (hne : cs ≠ []) (h : ∀ c ∈ cs, isOperatorChar c = true)
      (hline : ¬['-', '-'] <:+: cs) (hblock : ¬['/', '*'] <:+: cs) : IsComplete ⟨.operator, cs⟩
  | keyword {cs : List Char} {k : Keyword} (h : IsWord cs) (hk : upperAscii cs = k.spelling) :
      IsComplete ⟨.keyword k, cs⟩
  | word {cs : List Char} (h : IsWord cs) (hk : ∀ k : Keyword, upperAscii cs ≠ k.spelling) :
      IsComplete ⟨.identifier, cs⟩
  | lone {c : Char} (h : IsLone c) : IsComplete ⟨.unknown, [c]⟩

/-- The pieces that nothing but the end of the query ends: comments, literals and names that are not
closed. -/
inductive IsUnfinished : Piece → Prop
  | block {inside : List Char} (h : ¬['*', '/'] <:+: inside) :
      IsUnfinished ⟨.comment, '/' :: '*' :: inside⟩
  | literal {quote : Char} {inside : List Char} (hquote : IsQuote quote)
      (h : IsInside quote inside) : IsUnfinished ⟨.string, quote :: inside⟩
  | escape {quote : Char} {inside : List Char} (hquote : IsQuote quote)
      (h : IsInside quote inside) : IsUnfinished ⟨.string, quote :: (inside ++ ['\\'])⟩
  | name {inside : List Char} (h : IsPaired inside) : IsUnfinished ⟨.identifier, '\x60' :: inside⟩

lemma IsQuote.ne_backslash {quote : Char} (h : IsQuote quote) : quote ≠ '\\' := by
  rcases h with rfl | rfl <;> decide

namespace IsInside

variable {quote : Char} {inside : List Char}

lemma of_cons {c : Char} (hslash : c ≠ '\\') (h : IsInside quote (c :: inside)) :
    c ≠ quote ∧ IsInside quote inside := by
  cases h with
  | escape _ => exact absurd rfl hslash
  | plain _ hquote h => exact ⟨hquote, h⟩

lemma of_escape {d : Char} (h : IsInside quote ('\\' :: d :: inside)) : IsInside quote inside := by
  cases h with
  | escape h => exact h
  | plain hslash _ _ => exact absurd rfl hslash

/-- A quote that closes a literal is not inside it. -/
lemma not_append (h : IsInside quote inside) (hslash : quote ≠ '\\') :
    ¬IsInside quote (inside ++ [quote]) := by
  induction h with
  | nil => exact fun hquote => (of_cons hslash hquote).1 rfl
  | escape _ ih => exact fun hquote => ih hquote.of_escape
  | plain hc _ _ ih => exact fun hquote => ih (hquote.of_cons hc).2

end IsInside

/-- A piece that ends by itself is not unfinished. -/
lemma IsComplete.not_isUnfinished {p : Piece} (h : IsComplete p) : ¬IsUnfinished p := by
  intro hopen
  cases hopen with
  | @block inside hinside =>
      generalize htext : '/' :: '*' :: inside = text at h
      cases h with
      | line _ => simp at htext
      | @block closed _ =>
          obtain rfl : inside = closed ++ ['*', '/'] := by simpa using htext
          exact hinside (List.suffix_append _ _).isInfix
  | @literal quote inside hquote hinside =>
      generalize htext : quote :: inside = text at h
      cases h with
      | literal _ hclosed =>
          obtain ⟨rfl, rfl⟩ := List.cons.inj htext
          exact hclosed.not_append hquote.ne_backslash hinside
  | @escape quote inside hquote hinside =>
      generalize htext : quote :: (inside ++ ['\\']) = text at h
      cases h with
      | literal _ _ =>
          obtain ⟨rfl, hend⟩ := List.cons.inj htext
          exact hquote.ne_backslash (List.append_inj_right' hend rfl |> List.cons.inj).1.symm
  | @name inside hinside =>
      generalize htext : '\x60' :: inside = text at h
      cases h with
      | name hclosed =>
          exact hinside.not_isClosed ⟨_, hclosed, htext⟩
      | word hword _ =>
          subst htext
          exact absurd hword.1 (by decide)

/-! ### Reading texts of these forms -/

/-- Two characters one after the other in a text. -/
lemma pair_infix_cons {x y c : Char} {cs : List Char} :
    [x, y] <:+: c :: cs ↔ c = x ∧ cs.head? = some y ∨ [x, y] <:+: cs := by
  rw [List.infix_cons_iff, List.cons_prefix_cons]
  cases cs with
  | nil => simp
  | cons d cs => simp [List.cons_prefix_cons, eq_comm]

lemma head?_append_head? (cs after : List Char) :
    (cs ++ after.head?.toList).head? = (cs ++ after).head? := by
  refine head?_append_congr ?_ cs
  cases after <;> rfl

/-- Two characters, of which the second may be the first after the text. -/
lemma pair_infix_append_head? {x y : Char} {cs after : List Char} :
    [x, y] <:+: cs ++ after.head?.toList ↔
      [x, y] <:+: cs ∨ cs.getLast? = some x ∧ after.head? = some y := by
  induction cs with
  | nil => cases after <;> simp [List.infix_cons_iff]
  | cons c cs ih =>
      rw [List.cons_append, pair_infix_cons, ih, pair_infix_cons, head?_append_head?]
      cases cs with
      | nil => simp
      | cons d cs => simp [or_assoc]

/-- A text has no closing mark of a block comment, or a first one. -/
lemma exists_first_blockEnd (cs : List Char) :
    ¬['*', '/'] <:+: cs ∨
      ∃ inside after, cs = inside ++ '*' :: '/' :: after ∧ ¬['*', '/'] <:+: inside ++ ['*'] := by
  induction cs with
  | nil => exact .inl (by simp)
  | cons c cs ih =>
      by_cases hend : c = '*' ∧ cs.head? = some '/'
      · obtain ⟨rfl, hcs⟩ := hend
        obtain ⟨after, rfl⟩ := List.head?_eq_some_iff.mp hcs
        exact .inr ⟨[], after, rfl, by simp [pair_infix_cons]⟩
      · rcases ih with hnone | ⟨inside, after, rfl, hfirst⟩
        · exact .inl (pair_infix_cons.not.mpr (not_or.mpr ⟨hend, hnone⟩))
        · have hhead : (inside ++ ['*']).head? = (inside ++ '*' :: '/' :: after).head? :=
            head?_append_head? inside ('*' :: '/' :: after)
          refine .inr ⟨c :: inside, after, rfl, ?_⟩
          rw [List.cons_append, pair_infix_cons, hhead, not_or]
          exact ⟨hend, hfirst⟩

/-- Before the first closing mark nothing closes a block comment. -/
lemma throughBlockEnd_append_of_open {inside after : List Char}
    (h : ¬['*', '/'] <:+: inside ++ after.head?.toList) :
    throughBlockEnd (inside ++ after) =
      (inside ++ (throughBlockEnd after).1, (throughBlockEnd after).2) := by
  induction inside with
  | nil => rfl
  | cons c inside ih =>
      rw [List.cons_append, pair_infix_cons, not_or, head?_append_head?] at h
      rw [List.cons_append, throughBlockEnd_cons, if_neg h.1, ih h.2]
      rfl

lemma throughBlockEnd_of_first {inside : List Char} (h : ¬['*', '/'] <:+: inside ++ ['*'])
    (after : List Char) :
    throughBlockEnd (inside ++ '*' :: '/' :: after) = (inside ++ ['*', '/'], after) := by
  rw [throughBlockEnd_append_of_open h, throughBlockEnd]

lemma throughBlockEnd_of_none {inside : List Char} (h : ¬['*', '/'] <:+: inside) :
    throughBlockEnd inside = (inside, []) := by
  have hread : throughBlockEnd (inside ++ []) = _ :=
    throughBlockEnd_append_of_open (by rwa [List.head?_nil, Option.toList_none, List.append_nil])
  simpa [throughBlockEnd] using hread

section Literals

variable {quote : Char}

/-- A text is inside of a literal up to a quote that closes it, or to the end; a backslash may be
left over there. -/
lemma exists_isInside (quote : Char) (cs : List Char) :
    ∃ inside rest, cs = inside ++ rest ∧ IsInside quote inside ∧
      (rest = [] ∨ rest = ['\\'] ∨ ∃ after, rest = quote :: after) := by
  -- by two characters at a time, as a backslash takes the next one along
  induction cs using List.twoStepInduction with
  | nil => exact ⟨[], [], rfl, .nil, .inl rfl⟩
  | singleton c =>
      by_cases hslash : c = '\\'
      · exact ⟨[], [c], rfl, .nil, .inr (.inl (by rw [hslash]))⟩
      by_cases hquote : c = quote
      · exact ⟨[], [c], rfl, .nil, .inr (.inr ⟨[], by rw [hquote]⟩)⟩
      · exact ⟨[c], [], rfl, .plain hslash hquote .nil, .inl rfl⟩
  | cons_cons c d cs ih ih' =>
      by_cases hslash : c = '\\'
      · obtain ⟨inside, rest, rfl, hinside, hrest⟩ := ih
        subst hslash
        exact ⟨'\\' :: d :: inside, rest, rfl, hinside.escape, hrest⟩
      by_cases hquote : c = quote
      · exact ⟨[], c :: d :: cs, rfl, .nil, .inr (.inr ⟨d :: cs, by rw [hquote]⟩)⟩
      · obtain ⟨inside, rest, hcs, hinside, hrest⟩ := ih' d
        exact ⟨c :: inside, rest, by rw [hcs]; rfl, .plain hslash hquote hinside, hrest⟩

/-- Inside of a literal nothing closes it. -/
lemma IsInside.throughQuote_append {inside : List Char} (h : IsInside quote inside)
    (after : List Char) :
    throughQuote quote (inside ++ after) =
      (inside ++ (throughQuote quote after).1, (throughQuote quote after).2) := by
  induction h with
  | nil => rfl
  | escape _ ih =>
      rw [List.cons_append, List.cons_append, throughQuote, ih]
      rfl
  | plain hslash hquote _ ih =>
      rw [List.cons_append, throughQuote_cons, if_neg hslash, if_neg hquote, ih]
      rfl

end Literals

/-- No comment opens in a run of operators or where it goes on, and after it no other run begins. -/
lemma operatorRun_spec (cs : List Char) :
    (∀ c ∈ (operatorRun cs).1, isOperatorChar c = true) ∧
      ¬['-', '-'] <:+: (operatorRun cs).1 ++ (operatorRun cs).2.head?.toList ∧
      ¬['/', '*'] <:+: (operatorRun cs).1 ++ (operatorRun cs).2.head?.toList ∧
      (operatorRun (operatorRun cs).2).1 = [] := by
  induction cs with
  | nil => simp [operatorRun]
  | cons c cs ih =>
      obtain ⟨hchars, hlines, hblocks, hend⟩ := ih
      rw [operatorRun_cons]
      split_ifs with hc
      · rw [Bool.and_eq_true, Bool.and_eq_true, opensLineComment_cons, opensBlockComment_cons] at hc
        simp only [Bool.not_eq_true', Bool.and_eq_false_iff, decide_eq_false_iff_not] at hc
        simp only [List.cons_append, pair_infix_cons, head?_append_head?, operatorRun_append]
        refine ⟨?_, ?_, ?_, hend⟩
        · intro d hd
          rcases List.mem_cons.mp hd with rfl | hd
          · exact hc.1.1
          · exact hchars d hd
        · tauto
        · tauto
      · refine ⟨by simp, by simp [pair_infix_cons], by simp [pair_infix_cons], ?_⟩
        rw [operatorRun_cons, if_neg hc]

/-- Operator characters are read as a run, as long as they open no comment. -/
lemma operatorRun_append_of_apart {cs after : List Char} (h : ∀ c ∈ cs, isOperatorChar c = true)
    (hline : ¬['-', '-'] <:+: cs ++ after.head?.toList)
    (hblock : ¬['/', '*'] <:+: cs ++ after.head?.toList) :
    operatorRun (cs ++ after) = (cs ++ (operatorRun after).1, (operatorRun after).2) := by
  induction cs with
  | nil => rfl
  | cons c cs ih =>
      rw [List.cons_append, pair_infix_cons, not_or, head?_append_head?] at hline hblock
      have hc := h c List.mem_cons_self
      have hrest := ih (fun d hd => h d (List.mem_cons_of_mem c hd)) hline.2 hblock.2
      rw [List.cons_append, operatorRun_cons, hrest, if_pos]
      · rfl
      · rw [opensLineComment_cons, opensBlockComment_cons, hc]
        simp only [Bool.true_and, Bool.and_eq_true, Bool.not_eq_true', Bool.and_eq_false_iff,
          decide_eq_false_iff_not]
        tauto

end SqlCompletion
