import Mathlib.Data.List.Induction
import Mathlib.Data.List.TakeWhile
import SqlCompletion.Proofs.Token.Tiling

/-!
What a lexeme depends on: the text it covers, and how the text after it begins.

* `BeginsAlike`: two texts that no lexeme before them can tell apart;
* `scan_of_beginsAlike`: a lexeme is read in the same way before either of them;
* `scan_of_head`: for all lexemes but operators, what follows matters by its first character only.
-/

namespace SqlCompletion

open Text

/-! ### Texts that begin alike -/

/-- Two texts begin with the same character, or are both empty, and open the same comments. -/
structure BeginsAlike (a b : List Char) : Prop where
  head : a.head? = b.head?
  line : opensLineComment a = opensLineComment b
  block : opensBlockComment a = opensBlockComment b

lemma opensLineComment_cons (c : Char) (cs : List Char) :
    opensLineComment (c :: cs) = (c = '-' && cs.head? = some '-') := by
  rw [opensLineComment.eq_def]
  split
  · rename_i h
    obtain ⟨rfl, rfl⟩ := List.cons.inj h
    rfl
  · rename_i h
    cases cs with
    | nil => simp
    | cons d cs =>
        by_cases hc : c = '-'
        · by_cases hd : d = '-'
          · exact absurd (by rw [hc, hd]) (h cs)
          · simp [hd]
        · simp [hc]

lemma opensBlockComment_cons (c : Char) (cs : List Char) :
    opensBlockComment (c :: cs) = (c = '/' && cs.head? = some '*') := by
  rw [opensBlockComment.eq_def]
  split
  · rename_i h
    obtain ⟨rfl, rfl⟩ := List.cons.inj h
    rfl
  · rename_i h
    cases cs with
    | nil => simp
    | cons d cs =>
        by_cases hc : c = '/'
        · by_cases hd : d = '*'
          · exact absurd (by rw [hc, hd]) (h cs)
          · simp [hd]
        · simp [hc]

namespace BeginsAlike

variable {a b : List Char}

@[refl] lemma refl (a : List Char) : BeginsAlike a a :=
  ⟨rfl, rfl, rfl⟩

/-- Texts begin alike where their first two characters are the same. -/
lemma cons_of_head (h : a.head? = b.head?) (c : Char) : BeginsAlike (c :: a) (c :: b) :=
  ⟨rfl, by rw [opensLineComment_cons, opensLineComment_cons, h],
    by rw [opensBlockComment_cons, opensBlockComment_cons, h]⟩

lemma cons (h : BeginsAlike a b) (c : Char) : BeginsAlike (c :: a) (c :: b) :=
  cons_of_head h.head c

/-- Texts that begin alike do so after any text. -/
lemma append_left (h : BeginsAlike a b) (cs : List Char) : BeginsAlike (cs ++ a) (cs ++ b) := by
  induction cs with
  | nil => exact h
  | cons c cs ih => exact ih.cons c

/-- Texts that go on after a character that opens no comment begin alike. -/
lemma of_cons {c : Char} (hline : c ≠ '-') (hblock : c ≠ '/') (a b : List Char) :
    BeginsAlike (c :: a) (c :: b) :=
  ⟨rfl, by simp [opensLineComment_cons, hline], by simp [opensBlockComment_cons, hblock]⟩

end BeginsAlike

/-! ### Runs before texts that begin alike -/

variable {part a b : List Char}

lemma frontRun_cons (p : Char → Bool) (c : Char) (cs : List Char) :
    frontRun p (c :: cs) =
      if p c then (c :: (frontRun p cs).1, (frontRun p cs).2) else ([], c :: cs) := by
  by_cases h : p c <;> simp [frontRun, h]

/-- A run is all of its class, and what follows it begins with nothing of the class. -/
lemma frontRun_eq_iff {p : Char → Bool} {cs : List Char} :
    frontRun p cs = (part, a) ↔
      cs = part ++ a ∧ (∀ c ∈ part, p c = true) ∧ ∀ c ∈ a.head?, p c = false := by
  constructor
  · intro h
    obtain ⟨rfl, rfl⟩ := Prod.mk.inj h
    refine ⟨(frontRun_append p cs).symm, fun c => List.mem_takeWhile_imp, fun c hc => ?_⟩
    have hnot := List.head?_dropWhile_not p cs
    rw [show (cs.dropWhile p).head? = some c from hc] at hnot
    exact hnot
  · rintro ⟨rfl, hpart, ha⟩
    have hstop : a.takeWhile p = [] ∧ a.dropWhile p = a := by
      cases a with
      | nil => exact ⟨rfl, rfl⟩
      | cons c a => simp [ha c rfl]
    rw [frontRun, List.takeWhile_append_of_pos hpart, List.dropWhile_append_of_pos hpart, hstop.1,
      hstop.2, List.append_nil]

lemma frontRun_of_head {p : Char → Bool} (hab : a.head? = b.head?)
    (h : frontRun p (part ++ a) = (part, a)) : frontRun p (part ++ b) = (part, b) := by
  obtain ⟨-, hpart, ha⟩ := frontRun_eq_iff.mp h
  exact frontRun_eq_iff.mpr ⟨rfl, hpart, hab ▸ ha⟩

lemma head?_append_congr (hab : a.head? = b.head?) (part : List Char) :
    (part ++ a).head? = (part ++ b).head? := by
  cases part with
  | nil => exact hab
  | cons c part => rfl

lemma operatorRun_cons (c : Char) (cs : List Char) :
    operatorRun (c :: cs) =
      if isOperatorChar c && !opensLineComment (c :: cs) && !opensBlockComment (c :: cs) then
        (c :: (operatorRun cs).1, (operatorRun cs).2)
      else ([], c :: cs) := rfl

lemma operatorRun_of_beginsAlike (hab : BeginsAlike a b)
    (h : operatorRun (part ++ a) = (part, a)) : operatorRun (part ++ b) = (part, b) := by
  induction part with
  | nil =>
      cases b with
      | nil => rfl
      | cons c b =>
          obtain ⟨a', rfl⟩ := List.head?_eq_some_iff.mp hab.head
          rw [List.nil_append, operatorRun_cons, ← hab.line, ← hab.block]
          rw [List.nil_append, operatorRun_cons] at h
          split_ifs at h ⊢ with hc
          · simp at h
          · rfl
  | cons c part ih =>
      have hopens := hab.append_left (c :: part)
      rw [List.cons_append, List.cons_append] at hopens
      rw [List.cons_append, operatorRun_cons, ← hopens.line, ← hopens.block]
      rw [List.cons_append, operatorRun_cons] at h
      split_ifs at h ⊢ with hc
      · obtain ⟨hpart, ha⟩ := Prod.mk.inj h
        rw [ih (Prod.ext (List.cons.inj hpart).2 ha)]
      · simp at h

lemma throughBlockEnd_cons (c : Char) (cs : List Char) :
    throughBlockEnd (c :: cs) =
      if c = '*' ∧ cs.head? = some '/' then (['*', '/'], cs.tail)
      else (c :: (throughBlockEnd cs).1, (throughBlockEnd cs).2) := by
  split_ifs with h
  · obtain ⟨rfl, hcs⟩ := h
    obtain ⟨cs, rfl⟩ := List.head?_eq_some_iff.mp hcs
    rfl
  · rw [throughBlockEnd]
    rintro rest rfl rfl
    exact h ⟨rfl, rfl⟩

lemma throughBlockEnd_of_head (hab : a.head? = b.head?)
    (h : throughBlockEnd (part ++ a) = (part, a)) : throughBlockEnd (part ++ b) = (part, b) := by
  induction part with
  | nil =>
      cases b with
      | nil => rfl
      | cons c b =>
          obtain ⟨a', rfl⟩ := List.head?_eq_some_iff.mp hab
          rw [List.nil_append, throughBlockEnd_cons] at h
          split_ifs at h <;> simp at h
  | cons c part ih =>
      rw [List.cons_append, throughBlockEnd_cons, head?_append_congr hab] at h
      rw [List.cons_append, throughBlockEnd_cons]
      split_ifs at h ⊢ with hc
      · obtain ⟨hpart, -⟩ := Prod.mk.inj h
        obtain ⟨rfl, rfl⟩ := List.cons.inj hpart
        rfl
      · obtain ⟨hpart, ha⟩ := Prod.mk.inj h
        rw [ih (Prod.ext (List.cons.inj hpart).2 ha)]

lemma throughQuote_cons (quote c : Char) (cs : List Char) :
    throughQuote quote (c :: cs) =
      if c = '\\' then
        match cs with
        | [] => (['\\'], [])
        | d :: cs => ('\\' :: d :: (throughQuote quote cs).1, (throughQuote quote cs).2)
      else if c = quote then ([c], cs)
      else (c :: (throughQuote quote cs).1, (throughQuote quote cs).2) := by
  split_ifs with h hquote
  · subst c
    cases cs with
    | nil => simp [throughQuote]
    | cons d cs => rfl
  · rw [throughQuote, if_pos hquote]
    rintro d rest rfl
    exact absurd rfl h
  · rw [throughQuote, if_neg hquote]
    rintro d rest rfl
    exact absurd rfl h

lemma throughQuote_eq_nil {quote : Char} (h : (throughQuote quote a).1 = []) : a = [] := by
  cases a with
  | nil => rfl
  | cons c a =>
      rw [throughQuote_cons] at h
      split_ifs at h
      cases a <;> simp at h

lemma throughQuote_of_head {quote : Char} (hab : a.head? = b.head?)
    (h : throughQuote quote (part ++ a) = (part, a)) :
    throughQuote quote (part ++ b) = (part, b) := by
  have hnil : a = [] → b = [] := fun ha => List.head?_eq_none_iff.mp (by rw [← hab, ha]; rfl)
  induction part using List.twoStepInduction with
  | nil =>
      have ha : a = [] := throughQuote_eq_nil (by rw [← List.nil_append a, h])
      rw [hnil ha]
      rfl
  | singleton c =>
      rw [List.singleton_append, throughQuote_cons] at h
      rw [List.singleton_append, throughQuote_cons]
      split_ifs at h ⊢ with hc hquote
      · cases a with
        | nil => simp [hnil rfl, hc]
        | cons d a => simp at h
      · rfl
      · obtain ⟨hpart, -⟩ := Prod.mk.inj h
        have ha := throughQuote_eq_nil (List.cons.inj hpart).2
        rw [hnil ha]
        rfl
  | cons_cons c d part ih ih' =>
      rw [List.cons_append, throughQuote_cons] at h
      rw [List.cons_append, throughQuote_cons]
      split_ifs at h ⊢ with hc hquote
      · simp only [List.cons_append] at h ⊢
        obtain ⟨hpart, ha⟩ := Prod.mk.inj h
        rw [ih (Prod.ext (List.cons.inj (List.cons.inj hpart).2).2 ha), hc]
      · simp at h
      · obtain ⟨hpart, ha⟩ := Prod.mk.inj h
        rw [ih' d (Prod.ext (List.cons.inj hpart).2 ha)]

lemma throughBacktick_cons (c : Char) (cs : List Char) :
    throughBacktick (c :: cs) =
      if c = '\x60' then
        if cs.head? = some '\x60' then
          ('\x60' :: '\x60' :: (throughBacktick cs.tail).1,
            '\x60' :: (throughBacktick cs.tail).2.1, (throughBacktick cs.tail).2.2)
        else (['\x60'], [], cs)
      else (c :: (throughBacktick cs).1, c :: (throughBacktick cs).2.1,
        (throughBacktick cs).2.2) := by
  split_ifs with hc hcs
  · obtain ⟨cs, rfl⟩ := List.head?_eq_some_iff.mp hcs
    subst c
    rfl
  · subst c
    rw [throughBacktick, if_pos rfl]
    rintro rest - rfl
    exact hcs rfl
  · rw [throughBacktick, if_neg hc]
    rintro rest rfl
    exact absurd rfl hc

lemma throughBacktick_eq_nil (h : (throughBacktick a).1 = []) : a = [] := by
  cases a with
  | nil => rfl
  | cons c a =>
      rw [throughBacktick_cons] at h
      split_ifs at h

lemma throughBacktick_of_head (hab : a.head? = b.head?)
    (h : (throughBacktick (part ++ a)).1 = part) :
    throughBacktick (part ++ b) = (part, (throughBacktick (part ++ a)).2.1, b) := by
  have hnil : a = [] → b = [] := fun ha => List.head?_eq_none_iff.mp (by rw [← hab, ha]; rfl)
  induction part using List.twoStepInduction with
  | nil =>
      have ha := throughBacktick_eq_nil h
      rw [ha, hnil ha]
      rfl
  | singleton c =>
      rw [List.singleton_append, throughBacktick_cons] at h ⊢
      rw [List.singleton_append, throughBacktick_cons, ← hab]
      split_ifs at h ⊢ with hc hnext
      · simp at h
      · rw [hc]
      · have ha := throughBacktick_eq_nil (List.cons.inj h).2
        rw [ha, hnil ha]
        rfl
  | cons_cons c d part ih ih' =>
      simp only [List.cons_append] at h ih' ⊢
      by_cases hc : c = '\x60'
      · by_cases hd : d = '\x60'
        · subst hc hd
          rw [throughBacktick] at h ⊢
          rw [throughBacktick, ih (List.cons.inj (List.cons.inj h).2).2]
        · rw [throughBacktick_cons, if_pos hc, if_neg (by simpa using hd)] at h
          simp at h
      · rw [throughBacktick_cons c, if_neg hc] at h ⊢
        rw [throughBacktick_cons c, if_neg hc, ih' d (List.cons.inj h).2]

/-! ### Lexemes -/

/-- A part that is read off a text, when the rest is known. -/
lemma eq_of_parts {x : List Char × List Char} (happend : x.1 ++ x.2 = part ++ a) (hrest : x.2 = a) :
    x = (part, a) := by
  refine Prod.ext ?_ hrest
  rw [hrest] at happend
  exact List.append_cancel_right happend

/-- A lexeme that is made of a run is the same wherever the run is. -/
lemma lexeme_of_run (lexeme : List Char → Lexeme) {run : List Char → List Char × List Char}
    (happend : ∀ cs, (run cs).1 ++ (run cs).2 = cs)
    (hsame : run (part ++ a) = (part, a) → run (part ++ b) = (part, b)) {l : Lexeme}
    (h : (lexeme (run (part ++ a)).1, (run (part ++ a)).2) = (l, a)) :
    (lexeme (run (part ++ b)).1, (run (part ++ b)).2) = (l, b) := by
  have hrun := eq_of_parts (happend (part ++ a)) (congrArg Prod.snd h)
  rw [hrun] at h
  rw [hsame hrun]
  obtain ⟨rfl, -⟩ := Prod.mk.inj h
  rfl

/-- A punctuation mark is a lexeme by itself, whatever follows it. -/
lemma scan_of_punctuation? {c : Char} {kind : TokenKind} (h : punctuation? c = some kind)
    (rest : List Char) : scan c rest = (.plain kind [c], rest) := by
  rw [scan, opensLineComment_cons, opensBlockComment_cons, h]
  rw [punctuation?] at h
  split_ifs at h with hdot hcomma hopen hclose
  · subst c; rfl
  · subst c; rfl
  · subst c; rfl
  · subst c; rfl

/-- A lexeme is read in the same way before texts of which the first characters are the same.
Operators look further ahead. -/
lemma scan_of_head {c : Char} {l : Lexeme} (hab : a.head? = b.head?)
    (hoperators : l.kind = .operator → BeginsAlike a b) (h : scan c (part ++ a) = (l, a)) :
    scan c (part ++ b) = (l, b) := by
  rcases hkind : punctuation? c with _ | kind
  case some =>
      rw [scan_of_punctuation? hkind] at h ⊢
      obtain ⟨rfl, hrest⟩ := Prod.mk.inj h
      rw [List.append_left_eq_self.mp hrest]
      rfl
  have hopens := BeginsAlike.cons_of_head (head?_append_congr hab part) c
  rw [scan] at h ⊢
  rw [← hopens.line, ← hopens.block]
  simp only [hkind] at h ⊢
  split_ifs at h ⊢ with hblank hline hblock hquote hbacktick hdigit hoperator hword
  · exact lexeme_of_run (fun blanks => .plain .whitespace (c :: blanks)) (frontRun_append isBlank)
      (frontRun_of_head hab) h
  · exact lexeme_of_run (fun line => .plain .comment (c :: line)) (frontRun_append (· ≠ '\n'))
      (frontRun_of_head hab) h
  · cases part with
    | nil =>
        have hcovered := congrArg List.length (throughBlockEnd_append a.tail)
        have hrest : (throughBlockEnd a.tail).2 = a := congrArg Prod.snd h
        rw [opensBlockComment_cons] at hblock
        cases a with
        | nil => simp at hblock
        | cons d a =>
            rw [hrest, List.length_append, List.length_tail, List.length_cons] at hcovered
            omega
    | cons d part =>
        exact lexeme_of_run (fun block => .plain .comment (c :: '*' :: block))
          throughBlockEnd_append (throughBlockEnd_of_head hab) h
  · exact lexeme_of_run (fun literal => .plain .string (c :: literal)) (throughQuote_append c)
      (throughQuote_of_head hab) h
  · have hrest : (throughBacktick (part ++ a)).2.2 = a := congrArg Prod.snd h
    have happend := throughBacktick_append (part ++ a)
    rw [hrest] at happend
    have hcovered := List.append_cancel_right happend
    rw [throughBacktick_of_head hab hcovered]
    obtain ⟨rfl, -⟩ := Prod.mk.inj h
    rw [hcovered]
  · exact lexeme_of_run (fun digits => .plain .number (c :: digits)) (frontRun_append isNumberChar)
      (frontRun_of_head hab) h
  · have hl : l.kind = .operator := (congrArg (fun x => x.1.kind) h).symm
    exact lexeme_of_run (fun operators => .plain .operator (c :: operators)) operatorRun_append
      (operatorRun_of_beginsAlike (hoperators hl)) h
  · exact lexeme_of_run (fun letters => .plain (wordKind (c :: letters)) (c :: letters))
      (frontRun_append isWordChar) (frontRun_of_head hab) h
  · obtain ⟨rfl, hrest⟩ := Prod.mk.inj h
    rw [List.append_left_eq_self.mp hrest]
    rfl

/-- A lexeme is read in the same way before texts that begin alike. -/
lemma scan_of_beginsAlike {c : Char} {l : Lexeme} (hab : BeginsAlike a b)
    (h : scan c (part ++ a) = (l, a)) : scan c (part ++ b) = (l, b) :=
  scan_of_head hab.head (fun _ => hab) h

end SqlCompletion
