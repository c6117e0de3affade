import SqlCompletion.Proofs.Context.Word
import SqlCompletion.Proofs.Token.Cutting

/-!
What a context owes to the text before the cursor alone.

* `StandsClear`: a cursor that cuts no word, and that parts no keyword and no dot from what is
  before it;
* `Context.withoutTables`: what is known about a place, but for the tables;
* `Context.resolve_between`: a cursor between two lexemes;
* `Context.resolve_inside`, `Context.resolve_cut`: a cursor inside a lexeme, and the end of a text
  that ends there;
* `Context.resolve_before`: the text after the cursor bears on the tables only.
-/

namespace SqlCompletion

open Text

/-- A cursor between two characters that stands inside no word, and right before a keyword or a dot
only where a word or a dot ends. -/
structure StandsClear (sql : String) (cursor : ℕ) : Prop where
  boundary : IsBoundary sql.toList cursor
  outside : ∀ t ∈ tokenize sql, t.kind.isWord → ¬ (t.start < cursor ∧ cursor < t.stop)
  attached : ∀ t ∈ tokenize sql, t.start = cursor → t.kind.keyword?.isSome ∨ t.kind = .dot →
    ∃ t' ∈ tokenize sql, t'.stop = cursor ∧ Focus.continues t'

lemma StandsClear.iff_and {sql : String} {cursor : ℕ} : StandsClear sql cursor ↔
    IsBoundary sql.toList cursor ∧
    (∀ t ∈ tokenize sql, t.kind.isWord → ¬ (t.start < cursor ∧ cursor < t.stop)) ∧
    ∀ t ∈ tokenize sql, t.start = cursor → t.kind.keyword?.isSome ∨ t.kind = .dot →
      ∃ t' ∈ tokenize sql, t'.stop = cursor ∧ Focus.continues t' :=
  ⟨fun h => ⟨h.boundary, h.outside, h.attached⟩, fun h => ⟨h.1, h.2.1, h.2.2⟩⟩

instance (sql : String) (cursor : ℕ) : Decidable (StandsClear sql cursor) :=
  decidable_of_iff' _ StandsClear.iff_and

/-- Where no word and no dot ends at the cursor, no keyword and no dot begins there. -/
lemma StandsClear.of_start {sql : String} {cursor : ℕ} (h : StandsClear sql cursor)
    (hquiet : ∀ x ∈ tokenize sql, x.stop = cursor → Focus.continues x = false) {t : Token}
    (ht : t ∈ tokenize sql) (hstart : t.start = cursor) :
    t.kind.keyword? = none ∧ t.kind ≠ .dot := by
  rw [← Option.not_isSome_iff_eq_none, ← not_or]
  intro hkind
  obtain ⟨x, hx, hstop, hcontinues⟩ := h.attached t ht hstart hkind
  rw [hquiet x hx hstop] at hcontinues
  cases hcontinues

lemma TokenKind.keyword?_eq_none {kind : TokenKind} (h : kind.isWord = false) :
    kind.keyword? = none := by
  cases kind <;> first | rfl | cases h

/-- What is no keyword opens no clause. -/
lemma Clause.nearest_cons {t : Token} (h : t.kind.keyword? = none) (before : List Token) :
    Clause.nearest (t :: before) = Clause.nearest before := by
  rw [Clause.nearest, h]
  rfl

/-! ### Contexts but for their tables -/

namespace Context

/-- What is known about a place, but for the tables. -/
def withoutTables (context : Context) : Context :=
  { context with fromTables := [], targetTable := none }

/-- The context, but for the tables, of a cursor that is on no word and after no dot. -/
def apart (clause : Clause) (cursor : ℕ) (selectedDatabase : Option String) : Context :=
  { clause := clause, wordStart := cursor, selectedDatabase := selectedDatabase }

lemma withoutTables_resolve {sql : String} {cursor : ℕ} (h : cursor ≤ byteLength sql.toList)
    (selectedDatabase : Option String) :
    (resolve sql cursor selectedDatabase).withoutTables =
      match Focus.ofCursor? (tokenize sql) cursor with
      | none => apart .UNKNOWN cursor selectedDatabase
      | some focus =>
        (ofFocus sql.toList cursor focus
          (apart .UNKNOWN cursor selectedDatabase)).withoutTables := by
  simp only [resolve, Nat.min_eq_left h]
  cases Focus.ofCursor? (tokenize sql) cursor <;> rfl

/-- Where the token of the cursor has ended, neither the text nor the tokens after it matter. -/
lemma withoutTables_ofFocus_of_ended {before : List Token} {t : Token} {cursor : ℕ}
    (h : t.stop ≤ cursor) (sql sql' : List Char) (after after' : List Token) (base : Context) :
    (ofFocus sql cursor ⟨before, t, after⟩ base).withoutTables =
      (ofFocus sql' cursor ⟨before, t, after'⟩ base).withoutTables := by
  have hword : ∀ cs, Focus.wordBefore cs t cursor = t.value := fun cs => if_pos h
  simp only [ofFocus, withoutTables, hword]
  rfl

/-- A cursor at the front of a word is on none of it. -/
lemma wordBefore_start (sql : List Char) {t : Token} {cursor : ℕ} (hstart : t.start = cursor)
    (hstop : cursor < t.stop) : Focus.wordBefore sql t cursor = "" := by
  have hslice : (slice? sql cursor cursor).getD [] = [] := by
    rw [slice?, if_neg (Nat.lt_irrefl _), Nat.sub_self]
    cases splitAt? sql cursor with
    | none => rfl
    | some parts => simp [splitAt?]
  rw [Focus.wordBefore, if_neg (Nat.not_le.mpr hstop), hstart, hslice]

/-- A token that is neither a keyword nor a dot, and no word that the cursor is on or that follows a
dot, bears on nothing. -/
lemma withoutTables_ofFocus_apart {sql : List Char} {cursor : ℕ} {focus : Focus}
    (hkeyword : focus.token.kind.keyword? = none) (hdot : focus.token.kind ≠ .dot)
    (hword : focus.token.kind.isWord → focus.token.start = cursor ∧ cursor < focus.token.stop ∧
      ∀ x ∈ focus.before.head?, x.kind ≠ .dot) (selectedDatabase : Option String) :
    (ofFocus sql cursor focus (apart .UNKNOWN cursor selectedDatabase)).withoutTables =
      apart (Clause.nearest focus.before) cursor selectedDatabase := by
  have hbefore : focus.beforeDot? = none := by
    rw [Focus.beforeDot?, if_neg hdot]
    split
    · rename_i x earlier hx
      rw [if_neg]
      intro hand
      simp only [Bool.and_eq_true, decide_eq_true_eq] at hand
      exact (hword hand.1).2.2 x (by rw [hx]; rfl) hand.2
    · rfl
  simp only [ofFocus, withoutTables, Clause.nearest_cons hkeyword, hbefore]
  split_ifs with hisWord
  · obtain ⟨hstart, hstop, -⟩ := hword hisWord
    rw [wordBefore_start sql hstart hstop, hstart]
    rfl
  · rfl

/-! ### The context of a cursor between or inside tokens -/

section Places

variable {sql : String} {ended rest : List Token} {t : Token} {cursor : ℕ}

/-- The context of a cursor where no word and no dot ends, and where the next token bears on
nothing. -/
lemma resolve_apart (htokens : tokenize sql = ended ++ t :: rest)
    (hended : ∀ x ∈ ended, x.stop ≤ cursor) (ht : cursor < t.stop)
    (hquiet : ∀ x ∈ ended, x.stop = cursor → Focus.continues x = false)
    (hkeyword : t.kind.keyword? = none) (hdot : t.kind ≠ .dot)
    (hword : t.kind.isWord → t.start = cursor) (selectedDatabase : Option String) :
    (resolve sql cursor selectedDatabase).withoutTables =
      apart (Clause.nearest ended.reverse) cursor selectedDatabase := by
  have hle : cursor ≤ byteLength sql.toList := ht.le.trans (isBoundary_stop htokens).le_byteLength
  rw [withoutTables_resolve hle, htokens, Focus.ofCursor?_of_reaches hended hquiet ht]
  refine withoutTables_ofFocus_apart hkeyword hdot (fun hisWord => ⟨hword hisWord, ht, ?_⟩) _
  intro x hx hkind
  -- the token before a word ends where it begins
  obtain ⟨before, hbefore⟩ := List.head?_eq_some_iff.mp hx
  have hends : ended = before.reverse ++ [x] := by
    simpa using congrArg List.reverse hbefore
  rw [hends, List.append_assoc, List.singleton_append] at htokens
  have hstop : x.stop = cursor := by rw [← start_eq_stop_of_tokenize htokens, hword hisWord]
  have hcontinues := hquiet x (by simp [hends]) hstop
  rw [Focus.continues, hkind] at hcontinues
  simp at hcontinues

/-- The context at the end of a query whose last token is neither a word nor a dot. -/
lemma resolve_apart_end (hquiet : ∀ x ∈ (tokenize sql).getLast?, Focus.continues x = false)
    (selectedDatabase : Option String) :
    (resolve sql (byteLength sql.toList) selectedDatabase).withoutTables =
      apart (Clause.nearest (tokenize sql).reverse) (byteLength sql.toList) selectedDatabase := by
  rw [withoutTables_resolve le_rfl]
  rcases List.eq_nil_or_concat (tokenize sql) with hnil | ⟨ended, t, htokens⟩
  · rw [hnil]
    rfl
  · have hended : ∀ x ∈ ended ++ [t], x.stop ≤ byteLength sql.toList := by
      intro x hx
      rw [← List.concat_eq_append, ← htokens] at hx
      obtain ⟨before, after, happend⟩ := List.append_of_mem hx
      exact (isBoundary_stop happend).le_byteLength
    rw [List.concat_eq_append] at htokens
    have ht : Focus.continues t = false := hquiet t (by simp [htokens])
    rw [Focus.continues, Bool.or_eq_false_iff, decide_eq_false_iff_not] at ht
    have hkeyword := TokenKind.keyword?_eq_none ht.1
    rw [htokens, Focus.ofCursor?_of_ended hended, List.reverse_append, List.reverse_singleton,
      List.singleton_append, Clause.nearest_cons hkeyword]
    refine withoutTables_ofFocus_apart hkeyword ht.2 (fun hisWord => ?_) _
    rw [ht.1] at hisWord
    cases hisWord

/-- The context of a cursor right after a word or a dot. -/
lemma resolve_of_continues (htokens : tokenize sql = ended ++ t :: rest) (ht : Focus.continues t)
    (selectedDatabase : Option String) :
    (resolve sql t.stop selectedDatabase).withoutTables =
      (ofFocus [] t.stop ⟨ended.reverse, t, []⟩
        (apart .UNKNOWN t.stop selectedDatabase)).withoutTables := by
  rw [withoutTables_resolve (isBoundary_stop htokens).le_byteLength,
    Focus.ofCursor?_stop htokens ht]
  exact withoutTables_ofFocus_of_ended le_rfl _ _ _ _ _

end Places

variable {sql : String} {a b : List Lexeme} {l : Lexeme} {p q : List Char}

/-- A cursor between two lexemes. -/
lemma resolve_between (h : lexemes sql.toList = a ++ l :: b)
    (hclear : StandsClear sql (byteLength (covered a))) (selectedDatabase : Option String) :
    (resolve (String.ofList (covered a)) (byteLength (covered a)) selectedDatabase).withoutTables =
      (resolve sql (byteLength (covered a)) selectedDatabase).withoutTables := by
  have hread : lexemes (covered (a ++ l :: b)) = a ++ l :: b := by rw [← h, covered_lexemes]
  have hsql : tokenize sql =
      placeLexemes 0 a ++ placeLexemes (byteLength (covered a)) (l :: b) := by
    rw [tokenize, h, placeLexemes_append, Nat.zero_add]
  have hbefore : tokenize (String.ofList (covered a)) = placeLexemes 0 a := by
    rw [tokenize, String.toList_ofList, lexemes_covered_left hread]
  have hne : ∀ l' ∈ l :: b, l'.text ≠ [] := fun l' hl' => by
    have hmem : l' ∈ lexemes sql.toList := h ▸ List.mem_append_right a hl'
    exact text_ne_nil_of_mem_lexemes hmem
  have hrest : ∀ x ∈ placeLexemes (byteLength (covered a)) (l :: b),
      byteLength (covered a) < x.stop := fun x hx => lt_stop_of_mem_placeLexemes hne hx
  by_cases hquiet : ∀ x ∈ tokenize sql, x.stop = byteLength (covered a) →
      Focus.continues x = false
  · have hended : ∀ x ∈ placeLexemes 0 a, x.stop = byteLength (covered a) →
        Focus.continues x = false := fun x hx => hquiet x (by simp [hsql, hx])
    have hlast : ∀ x ∈ (tokenize (String.ofList (covered a))).getLast?,
        Focus.continues x = false := by
      intro x hx
      rw [hbefore] at hx
      refine hended x (List.mem_of_mem_getLast? hx) ?_
      rw [stop_of_mem_getLast?_placeLexemes hx, Nat.zero_add]
    have hapart := resolve_apart_end hlast selectedDatabase
    rw [String.toList_ofList, hbefore] at hapart
    rw [placeLexemes_cons] at hsql hrest
    have hnext := hclear.of_start hquiet (t := l.placedAt (byteLength (covered a)))
      (by simp [hsql]) rfl
    rw [hapart]
    refine (resolve_apart hsql (fun x hx => ?_) (hrest _ List.mem_cons_self) hended hnext.1 hnext.2
      (fun _ => rfl) _).symm
    exact (stop_le_of_mem_placeLexemes hx).trans (Nat.zero_add _).le
  · -- the word or the dot that ends at the cursor is the token of the cursor in both
    simp only [not_forall, Bool.not_eq_false] at hquiet
    obtain ⟨x, hx, hstop, hcontinues⟩ := hquiet
    rw [hsql] at hx
    have hx' : x ∈ placeLexemes 0 a :=
      (List.mem_append.mp hx).resolve_right fun hmem => (hrest x hmem).ne' hstop
    obtain ⟨ended, more, hsplit⟩ := List.append_of_mem hx'
    rw [hsplit] at hbefore hsql
    rw [List.append_assoc, List.cons_append] at hsql
    rw [← hstop, resolve_of_continues hbefore hcontinues, resolve_of_continues hsql hcontinues]

lemma inside_placedAt (n : ℕ) (htext : l.text = p ++ q) (hp : p ≠ []) (hq : q ≠ []) :
    (l.placedAt n).start < n + byteLength p ∧ n + byteLength p < (l.placedAt n).stop := by
  have hp' := byteLength_pos hp
  have hq' := byteLength_pos hq
  rw [Lexeme.placedAt, htext, byteLength_append]
  dsimp only
  omega

/-- A cursor inside a lexeme that is no word and no dot. -/
lemma resolve_inside (h : lexemes sql.toList = a ++ l :: b) (htext : l.text = p ++ q) (hp : p ≠ [])
    (hq : q ≠ []) (hword : l.kind.isWord = false) (hdot : l.kind ≠ .dot)
    (selectedDatabase : Option String) :
    (resolve sql (byteLength (covered a ++ p)) selectedDatabase).withoutTables =
      apart (Clause.nearest (placeLexemes 0 a).reverse) (byteLength (covered a ++ p))
        selectedDatabase := by
  have hsql : tokenize sql = placeLexemes 0 a ++ l.placedAt (byteLength (covered a)) ::
      placeLexemes (byteLength (covered a) + byteLength l.text) b := by
    rw [tokenize, h, placeLexemes_append, Nat.zero_add, placeLexemes_cons]
  obtain ⟨hstart, hstop⟩ := inside_placedAt (byteLength (covered a)) htext hp hq
  rw [← byteLength_append] at hstart hstop
  have hended : ∀ x ∈ placeLexemes 0 a, x.stop < byteLength (covered a ++ p) := fun x hx =>
    lt_of_le_of_lt ((stop_le_of_mem_placeLexemes hx).trans (Nat.zero_add _).le) hstart
  refine resolve_apart hsql (fun x hx => (hended x hx).le) hstop
    (fun x hx heq => absurd heq (hended x hx).ne) (TokenKind.keyword?_eq_none hword) hdot ?_ _
  intro hisWord
  rw [Lexeme.placedAt, hword] at hisWord
  cases hisWord

/-- The end of a text that ends inside a lexeme. The operator that the last token may take along
opens no clause. -/
lemma resolve_cut {a' : List Lexeme} {l' : Lexeme} (hcut : lexemes (covered a ++ p) = a' ++ [l'])
    (hword : l'.kind.isWord = false) (hdot : l'.kind ≠ .dot)
    (ha' : a' = a ∨ ∃ o, a = a' ++ [o] ∧ o.kind = .operator) (selectedDatabase : Option String) :
    (resolve (String.ofList (covered a ++ p)) (byteLength (covered a ++ p))
        selectedDatabase).withoutTables =
      apart (Clause.nearest (placeLexemes 0 a).reverse) (byteLength (covered a ++ p))
        selectedDatabase := by
  have hbefore : tokenize (String.ofList (covered a ++ p)) =
      placeLexemes 0 a' ++ [l'.placedAt (byteLength (covered a'))] := by
    rw [tokenize, String.toList_ofList, hcut, placeLexemes_append, Nat.zero_add, placeLexemes_cons]
    rfl
  have hclause : Clause.nearest (placeLexemes 0 a').reverse =
      Clause.nearest (placeLexemes 0 a).reverse := by
    rcases ha' with rfl | ⟨o, rfl, hoperator⟩
    · rfl
    · have hkeyword : (o.placedAt (0 + byteLength (covered a'))).kind.keyword? = none := by
        rw [Lexeme.placedAt, hoperator]
        rfl
      rw [placeLexemes_append, placeLexemes_cons, placeLexemes, List.reverse_append,
        List.reverse_singleton, List.singleton_append, Clause.nearest_cons hkeyword]
  have hlast : ∀ x ∈ (tokenize (String.ofList (covered a ++ p))).getLast?,
      Focus.continues x = false := by
    intro x hx
    rw [hbefore] at hx
    obtain rfl : l'.placedAt (byteLength (covered a')) = x := by simpa using hx
    rw [Focus.continues, Lexeme.placedAt, hword, decide_eq_false hdot]
    rfl
  have hapart := resolve_apart_end hlast selectedDatabase
  rwa [String.toList_ofList, hbefore, List.reverse_append, List.reverse_singleton,
    List.singleton_append, Clause.nearest_cons (TokenKind.keyword?_eq_none hword), hclause]
    at hapart

/-- **The text after the cursor bears on the tables only.** At a cursor that cuts no word and parts
no keyword or dot from what is before it, the query and the text before the cursor have the same
context but for the tables after `FROM` and `JOIN` and the target of the statement. -/
theorem resolve_before {sql : String} {cursor : ℕ} (h : StandsClear sql cursor)
    (selectedDatabase : Option String) :
    ∃ before after, splitAt? sql.toList cursor = some (before, after) ∧
      (resolve (String.ofList before) cursor selectedDatabase).withoutTables =
        (resolve sql cursor selectedDatabase).withoutTables := by
  obtain ⟨before, after, hsql, rfl⟩ := h.boundary.exists_split
  refine ⟨before, after, by rw [hsql, splitAt?_append], ?_⟩
  have hcovered : covered (lexemes sql.toList) = before ++ after := by rw [covered_lexemes, hsql]
  rcases covered_cut hcovered with ⟨a, b, hls, rfl, -⟩ | ⟨a, l, b, p, q, hls, htext, hp, hq, rfl, -⟩
  · cases b with
    | nil =>
        rw [List.append_nil] at hls
        rw [← hls, covered_lexemes, String.ofList_toList]
    | cons l b => exact resolve_between hls h selectedDatabase
  · have hmem : l.placedAt (byteLength (covered a)) ∈ tokenize sql := by
      simp [tokenize, hls, placeLexemes_append, placeLexemes_cons]
    have hinside := inside_placedAt (byteLength (covered a)) htext hp hq
    rw [← byteLength_append] at hinside
    have hword : l.kind.isWord = false :=
      Bool.eq_false_iff.mpr fun hisWord => h.outside _ hmem hisWord hinside
    have hread : lexemes (covered (a ++ l :: b)) = a ++ l :: b := by rw [← hls, covered_lexemes]
    obtain ⟨hdot, a', l', hcut, hword', hdot', ha'⟩ := exists_lexemes_cut hread htext hp hq hword
    rw [resolve_inside hls htext hp hq hword hdot, resolve_cut hcut hword' hdot' ha']

/-- A cursor between the dashes that open a comment, where the first of them is one operator with
what is before it. -/
theorem resolve_before_dashes :
    StandsClear "SELECT é WHERE x =-- y" 20 ∧
      ∃ before after, splitAt? "SELECT é WHERE x =-- y".toList 20 = some (before, after) ∧
        (resolve (String.ofList before) 20 (some "shop")).withoutTables =
          (resolve "SELECT é WHERE x =-- y" 20 (some "shop")).withoutTables := by
  have hclear : StandsClear "SELECT é WHERE x =-- y" 20 := by decide +kernel
  exact ⟨hclear, resolve_before hclear (some "shop")⟩

end Context

end SqlCompletion
