import Mathlib.Data.List.TakeWhile
import SqlCompletion.Proofs.Token.Locality
import SqlCompletion.Proofs.Token.Rules

/-!
A query is divided in the same way where it is cut between two tokens.

* `frontRun_cut`, `operatorRun_cut`, `throughBlockEnd_cut`, `throughQuote_cut`,
  `throughBacktick_cut`: what is read up to some mark is read to the end when the text ends earlier;
* `scan_cut`: a lexeme that is no word is cut into a lexeme of its kind;
* `lexemes_covered_left`: the lexemes before a cut are read in the same way when the text ends
  there;
* `tokenize_split`: the tokens of a query are those before a cut between tokens, and those after it.
-/

namespace SqlCompletion

open Text

/-! ### Runs in a text that ends earlier -/

section Runs

variable {part a : List Char}

lemma frontRun_cut {p : Char → Bool} (h : part <+: (frontRun p (part ++ a)).1) :
    frontRun p part = (part, []) := by
  have hall : ∀ c ∈ part, p c = true := fun c hc => List.mem_takeWhile_imp (h.mem hc)
  rw [frontRun, List.takeWhile_eq_self_iff.mpr hall, List.dropWhile_eq_nil_iff.mpr hall]

lemma opensLineComment_append (h : opensLineComment part = true) :
    opensLineComment (part ++ a) = true := by
  cases part with
  | nil => simp [opensLineComment] at h
  | cons c part =>
      cases part with
      | nil => simp [opensLineComment_cons] at h
      | cons d part => simpa [opensLineComment_cons] using h

lemma opensBlockComment_append (h : opensBlockComment part = true) :
    opensBlockComment (part ++ a) = true := by
  cases part with
  | nil => simp [opensBlockComment] at h
  | cons c part =>
      cases part with
      | nil => simp [opensBlockComment_cons] at h
      | cons d part => simpa [opensBlockComment_cons] using h

lemma operatorRun_cut (h : part <+: (operatorRun (part ++ a)).1) :
    operatorRun part = (part, []) := by
  induction part with
  | nil => rfl
  | cons c part ih =>
      rw [List.cons_append, operatorRun_cons] at h
      split_ifs at h with hc
      · simp only [Bool.and_eq_true, Bool.not_eq_true'] at hc
        have hline : opensLineComment (c :: part) = false := by
          by_contra hopens
          have hopens' := opensLineComment_append (a := a) (Bool.eq_true_of_not_eq_false hopens)
          rw [List.cons_append, hc.1.2] at hopens'
          cases hopens'
        have hblock : opensBlockComment (c :: part) = false := by
          by_contra hopens
          have hopens' := opensBlockComment_append (a := a) (Bool.eq_true_of_not_eq_false hopens)
          rw [List.cons_append, hc.2] at hopens'
          cases hopens'
        rw [operatorRun_cons, hc.1.1, hline, hblock, ih (List.cons_prefix_cons.mp h).2]
        rfl
      · simp at h

lemma throughBlockEnd_cut (h : part <+: (throughBlockEnd (part ++ a)).1) :
    throughBlockEnd part = (part, []) := by
  induction part with
  | nil => rfl
  | cons c part ih =>
      rw [List.cons_append, throughBlockEnd_cons] at h
      split_ifs at h with hmark
      · -- the mark is cut in two, or read whole
        have hpart := (List.cons_prefix_cons.mp h).2
        cases part with
        | nil => simp [throughBlockEnd_cons, throughBlockEnd]
        | cons d part =>
            obtain ⟨rfl, hnil⟩ := List.cons_prefix_cons.mp hpart
            rw [List.prefix_nil.mp hnil, hmark.1]
            rfl
      · have hmark' : ¬ (c = '*' ∧ part.head? = some '/') := by
          rintro ⟨hc, hhead⟩
          refine hmark ⟨hc, ?_⟩
          obtain ⟨more, rfl⟩ := List.head?_eq_some_iff.mp hhead
          rfl
        rw [throughBlockEnd_cons, if_neg hmark', ih (List.cons_prefix_cons.mp h).2]

lemma throughQuote_cut {quote : Char} (h : part <+: (throughQuote quote (part ++ a)).1) :
    throughQuote quote part = (part, []) := by
  induction part using List.twoStepInduction with
  | nil => rfl
  | singleton c =>
      rw [throughQuote_cons]
      split_ifs with hc hquote
      · rw [hc]
      · rfl
      · rfl
  | cons_cons c d part ih ih' =>
      rw [List.cons_append, throughQuote_cons] at h
      rw [throughQuote_cons]
      split_ifs at h ⊢ with hc hquote
      · have hrest := (List.cons_prefix_cons.mp (List.cons_prefix_cons.mp h).2).2
        rw [hc]
        simp only [ih hrest]
      · simp at h
      · rw [ih' d (List.cons_prefix_cons.mp h).2]

lemma throughBacktick_cut (h : (throughBacktick (part ++ a)).1 = part) :
    throughBacktick part = (part, (throughBacktick (part ++ a)).2.1, []) := by
  induction part using List.twoStepInduction with
  | nil =>
      have ha := throughBacktick_eq_nil h
      rw [ha]
      rfl
  | singleton c =>
      rw [List.singleton_append, throughBacktick_cons] at h ⊢
      rw [throughBacktick_cons, if_neg (show ¬ ([] : List Char).head? = some '\x60' by simp)]
      split_ifs at h ⊢ with hc hnext
      · simp at h
      · rw [hc]
      · have ha := throughBacktick_eq_nil (List.cons.inj h).2
        rw [ha]
        rfl
  | cons_cons c d part ih ih' =>
      simp only [List.cons_append] at h ih' ⊢
      by_cases hc : c = '\x60'
      · by_cases hd : d = '\x60'
        · subst hc hd
          rw [throughBacktick] at h ⊢
          rw [throughBacktick, ih (List.cons.inj (List.cons.inj h).2).2]
        · rw [throughBacktick_cons, if_pos hc, if_neg (by simpa using hd)] at h
          simp at h
      · rw [throughBacktick_cons c, if_neg hc] at h ⊢
        rw [throughBacktick_cons c, if_neg hc, ih' d (List.cons.inj h).2]

end Runs

/-! ### Lexemes in a text that ends earlier -/

section Lexemes

variable {part q a : List Char} {c : Char} {l : Lexeme}

/-- A lexeme that is made of a run is made of the front of it when the text ends earlier. -/
lemma lexeme_of_cut (lexeme : List Char → Lexeme) {run : List Char → List Char × List Char}
    (hkind : (lexeme part).kind = (lexeme (part ++ q)).kind)
    (happend : ∀ cs, (run cs).1 ++ (run cs).2 = cs)
    (hcut : part <+: (run (part ++ (q ++ a))).1 → run part = (part, []))
    (h : (lexeme (run (part ++ (q ++ a))).1, (run (part ++ (q ++ a))).2) = (l, a)) :
    ∃ l', (lexeme (run part).1, (run part).2) = (l', []) ∧ l'.kind = l.kind ∧
      (q = [] → l' = l) := by
  have hrest : (run (part ++ (q ++ a))).2 = a := congrArg Prod.snd h
  have hparts : (run (part ++ (q ++ a))).1 ++ (run (part ++ (q ++ a))).2 = (part ++ q) ++ a := by
    rw [happend, List.append_assoc]
  have hrun := eq_of_parts hparts hrest
  have hfront : part <+: (run (part ++ (q ++ a))).1 := by
    rw [hrun]
    exact List.prefix_append part q
  rw [hrun] at h
  obtain ⟨rfl, -⟩ := Prod.mk.inj h
  rw [hcut hfront]
  refine ⟨lexeme part, rfl, hkind, ?_⟩
  rintro rfl
  rw [List.append_nil]

/-- What opens a comment is read as one, and two characters of it at least. -/
lemma scan_of_opens {rest : List Char}
    (h : opensLineComment (c :: rest) = true ∨ opensBlockComment (c :: rest) = true) :
    (scan c rest).1.kind = .comment ∧ (scan c rest).2.length < rest.length := by
  rw [opensLineComment_cons, opensBlockComment_cons] at h
  simp only [Bool.and_eq_true, decide_eq_true_eq] at h
  rcases h with ⟨rfl, hhead⟩ | ⟨rfl, hhead⟩
  · obtain ⟨rest, rfl⟩ := List.head?_eq_some_iff.mp hhead
    have hscan : scan '-' ('-' :: rest) =
        (.plain .comment ('-' :: '-' :: rest.takeWhile (· ≠ '\n')),
          rest.dropWhile (· ≠ '\n')) := rfl
    rw [hscan]
    exact ⟨rfl, Nat.lt_succ_of_le (List.dropWhile_suffix _).length_le⟩
  · obtain ⟨rest, rfl⟩ := List.head?_eq_some_iff.mp hhead
    have hscan : scan '/' ('*' :: rest) =
        (.plain .comment ('/' :: '*' :: (throughBlockEnd rest).1), (throughBlockEnd rest).2) := rfl
    have hlength := congrArg List.length (throughBlockEnd_append rest)
    rw [List.length_append] at hlength
    rw [hscan, List.length_cons]
    refine ⟨rfl, ?_⟩
    show (throughBlockEnd rest).2.length < rest.length + 1
    omega

/-- The front of a lexeme that opens a comment opens it too, unless it is cut in the mark. -/
lemma opens_cut (h : scan c (part ++ (q ++ a)) = (l, a))
    (hmark : part = [] → q = [] ∨ l.kind ≠ .comment) :
    opensLineComment (c :: (part ++ (q ++ a))) = opensLineComment (c :: part) ∧
      opensBlockComment (c :: (part ++ (q ++ a))) = opensBlockComment (c :: part) := by
  cases part with
  | cons d part => simp [opensLineComment_cons, opensBlockComment_cons]
  | nil =>
      rw [List.nil_append] at h ⊢
      have hopens : ¬ (opensLineComment (c :: (q ++ a)) = true ∨
          opensBlockComment (c :: (q ++ a)) = true) := by
        intro hopens
        obtain ⟨hkind, hlength⟩ := scan_of_opens hopens
        rw [h] at hkind hlength
        rcases hmark rfl with rfl | hne
        · simp at hlength
        · exact hne hkind
      rw [not_or, Bool.not_eq_true, Bool.not_eq_true] at hopens
      rw [hopens.1, hopens.2, opensLineComment_cons, opensBlockComment_cons]
      simp

/-- The front of a lexeme is read as a lexeme of its kind when the text ends after it. Words are not
cut, nor are the two characters that open a comment. -/
lemma scan_cut (h : scan c (part ++ (q ++ a)) = (l, a)) (hword : q = [] ∨ l.kind.isWord = false)
    (hmark : part = [] → q = [] ∨ l.kind ≠ .comment) :
    ∃ l', scan c part = (l', []) ∧ l'.kind = l.kind ∧ (q = [] → l' = l) := by
  obtain ⟨hopens, hopens'⟩ := opens_cut h hmark
  rcases hkind : punctuation? c with _ | kind
  case some =>
      rw [scan_of_punctuation? hkind, ← List.append_assoc] at h
      obtain ⟨hl, hrest⟩ := Prod.mk.inj h
      obtain ⟨hpart, -⟩ := List.append_eq_nil_iff.mp (List.append_left_eq_self.mp hrest)
      rw [scan_of_punctuation? hkind, hpart]
      exact ⟨l, by rw [hl], rfl, fun _ => rfl⟩
  rw [scan, hopens, hopens'] at h
  rw [scan]
  simp only [hkind] at h ⊢
  split_ifs at h ⊢ with hblank hline hblock hquote hbacktick hdigit hoperator hopensWord
  · exact lexeme_of_cut (fun blanks => .plain .whitespace (c :: blanks)) rfl
      (frontRun_append isBlank) frontRun_cut h
  · exact lexeme_of_cut (fun line => .plain .comment (c :: line)) rfl
      (frontRun_append (· ≠ '\n')) frontRun_cut h
  · rw [opensBlockComment_cons, Bool.and_eq_true, decide_eq_true_eq, decide_eq_true_eq] at hblock
    obtain ⟨part, rfl⟩ := List.head?_eq_some_iff.mp hblock.2
    exact lexeme_of_cut (fun block => .plain .comment (c :: '*' :: block)) rfl
      throughBlockEnd_append throughBlockEnd_cut h
  · exact lexeme_of_cut (fun literal => .plain .string (c :: literal)) rfl (throughQuote_append c)
      throughQuote_cut h
  · -- a name is not cut, and what it stands for does not change
    obtain ⟨hl, hrest⟩ := Prod.mk.inj h
    have hq : q = [] := by
      rcases hword with hq | hword
      · exact hq
      · rw [← hl] at hword
        cases hword
    rw [hq, List.nil_append] at hl hrest
    have happend := throughBacktick_append (part ++ a)
    rw [hrest] at happend
    have hname := throughBacktick_cut (List.append_cancel_right happend)
    rw [List.append_cancel_right happend] at hl
    refine ⟨l, ?_, rfl, fun _ => rfl⟩
    rw [hname, ← hl]
  · exact lexeme_of_cut (fun digits => .plain .number (c :: digits)) rfl
      (frontRun_append isNumberChar) frontRun_cut h
  · exact lexeme_of_cut (fun operators => .plain .operator (c :: operators)) rfl
      operatorRun_append operatorRun_cut h
  · have hq : q = [] := by
      rcases hword with hq | hword
      · exact hq
      · have hl : l.kind.isWord = true := by
          obtain ⟨rfl, -⟩ := Prod.mk.inj h
          exact isWord_wordKind _
        rw [hl] at hword
        cases hword
    rw [hq] at h ⊢
    exact lexeme_of_cut (fun letters => .plain (wordKind (c :: letters)) (c :: letters))
      (by rw [List.append_nil]) (frontRun_append isWordChar) frontRun_cut h
  · rw [← List.append_assoc] at h
    obtain ⟨hl, hrest⟩ := Prod.mk.inj h
    obtain ⟨hpart, -⟩ := List.append_eq_nil_iff.mp (List.append_left_eq_self.mp hrest)
    rw [hpart]
    exact ⟨l, by rw [hl], rfl, fun _ => rfl⟩

/-- A lexeme is read in the same way when the text ends after it. -/
lemma scan_of_end (h : scan c (part ++ a) = (l, a)) : scan c part = (l, []) := by
  obtain ⟨l', hscan, -, hl⟩ := scan_cut (q := []) h (.inl rfl) fun _ => .inl rfl
  rw [hscan, hl rfl]

/-- A text that begins with a lexeme begins like the lexeme alone. -/
lemma beginsAlike_of_scan (h : scan c (part ++ a) = (l, a)) :
    BeginsAlike (c :: (part ++ a)) (c :: part) := by
  obtain ⟨hline, hblock⟩ := opens_cut (q := []) h fun _ => .inl rfl
  exact ⟨rfl, hline, hblock⟩

end Lexemes

/-- Lexemes are read in the same way before texts that begin alike. -/
lemma lexemes_append_of_beginsAlike {ls : List Lexeme} {a b : List Char} (hab : BeginsAlike a b)
    (h : lexemes (covered ls ++ a) = ls ++ lexemes a) :
    lexemes (covered ls ++ b) = ls ++ lexemes b := by
  induction ls with
  | nil => rfl
  | cons l ls ih =>
      have hcovered : covered (ls ++ lexemes a) = covered ls ++ a := by
        rw [covered_append, covered_lexemes]
      have hread : lexemes (covered (l :: (ls ++ lexemes a))) = l :: (ls ++ lexemes a) := by
        rw [covered_cons, hcovered, ← List.append_assoc, ← covered_cons]
        exact h
      obtain ⟨c, part, htext, hscan, hrest⟩ := exists_scan_of_lexemes hread
      rw [hcovered] at hscan hrest
      rw [covered_cons, List.append_assoc, htext, List.cons_append, lexemes,
        scan_of_beginsAlike (hab.append_left (covered ls)) hscan, ih hrest]
      rfl

/-- The lexemes before a cut are read in the same way when the text ends there. -/
lemma lexemes_covered_left {a b : List Lexeme} (h : lexemes (covered (a ++ b)) = a ++ b) :
    lexemes (covered a) = a := by
  induction a using List.reverseRecOn with
  | nil => rw [covered_nil, lexemes]
  | append_singleton a l =>
      rw [List.append_assoc, List.singleton_append] at h
      have hlast := lexemes_covered_suffix h
      obtain ⟨c, part, htext, hscan, -⟩ := exists_scan_of_lexemes hlast
      have halike : BeginsAlike (covered (l :: b)) l.text := by
        rw [covered_cons, htext]
        exact beginsAlike_of_scan hscan
      have hread : lexemes (covered a ++ covered (l :: b)) = a ++ lexemes (covered (l :: b)) := by
        rw [← covered_append, h, hlast]
      have hl : lexemes l.text = [l] := by
        rw [htext, lexemes, scan_of_end hscan, lexemes]
      rw [covered_append, covered_cons, covered_nil, List.append_nil,
        lexemes_append_of_beginsAlike halike hread, hl]

/-! ### Tokens -/

/-- The token as it stands in a text that begins a number of bytes earlier. -/
def Token.shift (n : ℕ) (t : Token) : Token :=
  { t with start := n + t.start, stop := n + t.stop }

lemma placeLexemes_add (n start : ℕ) (ls : List Lexeme) :
    placeLexemes (n + start) ls = (placeLexemes start ls).map (Token.shift n) := by
  induction ls generalizing start with
  | nil => rfl
  | cons l ls ih =>
      rw [placeLexemes_cons, placeLexemes_cons, List.map_cons, Nat.add_assoc, ih]
      simp only [Lexeme.placedAt, Token.shift, Nat.add_assoc]

/-- Where some lexemes of a query end, the query falls into two whose tokens are its own. -/
lemma tokenize_of_lexemes {sql : String} {a b : List Lexeme}
    (h : lexemes sql.toList = a ++ b) :
    splitAt? sql.toList (byteLength (covered a)) = some (covered a, covered b) ∧
      tokenize sql = tokenize (String.ofList (covered a)) ++
        (tokenize (String.ofList (covered b))).map (Token.shift (byteLength (covered a))) := by
  have hsql : sql.toList = covered a ++ covered b := by rw [← covered_append, ← h, covered_lexemes]
  have hread : lexemes (covered (a ++ b)) = a ++ b := by rw [← h, covered_lexemes]
  constructor
  · rw [hsql, splitAt?_append]
  · rw [tokenize, tokenize, tokenize, String.toList_ofList, String.toList_ofList, h,
      lexemes_covered_left hread, lexemes_covered_suffix hread, placeLexemes_append, Nat.zero_add,
      ← placeLexemes_add, Nat.add_zero]

/-- **Tokens do not look beyond the cut between them.** Where a token of a query begins or ends, the
tokens of the query are those of the text before that place, followed by those of the text after
it, which stand so much later. -/
theorem tokenize_split {sql : String} {place : ℕ}
    (h : ∃ t ∈ tokenize sql, place = t.start ∨ place = t.stop) :
    ∃ before after, splitAt? sql.toList place = some (before, after) ∧
      tokenize sql = tokenize (String.ofList before) ++
        (tokenize (String.ofList after)).map (Token.shift place) := by
  obtain ⟨t, ht, hplace⟩ := h
  obtain ⟨before, after, htokens⟩ := List.append_of_mem ht
  obtain ⟨a, l, b, hls, -, rfl, -⟩ := exists_lexeme_of_tokenize htokens
  rcases hplace with rfl | rfl
  · exact ⟨covered a, covered (l :: b), tokenize_of_lexemes hls⟩
  · have hls' : lexemes sql.toList = (a ++ [l]) ++ b := by simp [hls]
    have hstop : (l.placedAt (byteLength (covered a))).stop = byteLength (covered (a ++ [l])) := by
      simp [Lexeme.placedAt]
    rw [hstop]
    exact ⟨covered (a ++ [l]), covered b, tokenize_of_lexemes hls'⟩

/-- An operator that ends where a comment opens is cut off from it. -/
theorem tokenize_split_comment :
    (∃ t ∈ tokenize "SELECT é<=--x", 11 = t.start ∨ 11 = t.stop) ∧
      ∃ before after, splitAt? "SELECT é<=--x".toList 11 = some (before, after) ∧
        tokenize "SELECT é<=--x" = tokenize (String.ofList before) ++
          (tokenize (String.ofList after)).map (Token.shift 11) := by
  have hplace : ∃ t ∈ tokenize "SELECT é<=--x", 11 = t.start ∨ 11 = t.stop := by decide +kernel
  exact ⟨hplace, tokenize_split hplace⟩

end SqlCompletion
