import SqlCompletion.Context
import SqlCompletion.Proofs.Token.CaseFolding

/-!
The context of a cursor does not depend on the case of letters, save for the case of its names.

* `Focus.renamed`, `Focus.ofCursor?_renamed`: the token of a cursor is chosen without looking at
  names;
* `Context.folded`: a context without the case of its names;
* `Context.resolve_folded`: the context in a folded query is that in the query, folded.
-/

namespace SqlCompletion

open Text

namespace Focus

section Renaming

variable (f : String → String)

/-- The token with those before and after it, all with other names. -/
def renamed (focus : Focus) : Focus :=
  ⟨focus.before.map (Token.renamed f), focus.token.renamed f, focus.after.map (Token.renamed f)⟩

/-- The token of a cursor is chosen without looking at names. -/
lemma ofCursor?_renamed (tokens : List Token) (cursor : ℕ) :
    ofCursor? (tokens.map (Token.renamed f)) cursor =
      (ofCursor? tokens cursor).map (renamed f) := by
  have hstop : (fun t : Token => decide (t.stop ≤ cursor)) ∘ Token.renamed f =
      fun t => decide (t.stop ≤ cursor) := rfl
  simp only [ofCursor?, List.takeWhile_map, List.dropWhile_map, hstop, ← List.map_reverse]
  generalize (tokens.takeWhile _).reverse = ended
  generalize tokens.dropWhile _ = remaining
  cases ended with
  | nil => cases remaining <;> rfl
  | cons t before =>
      cases remaining with
      | nil => rfl
      | cons next after =>
          have hcontinues : continues (t.renamed f) = continues t := rfl
          by_cases ht : t.stop = cursor <;> cases hc : continues t <;>
            simp [ht, hc, hcontinues, renamed]

lemma beforeDot?_renamed (focus : Focus) :
    (focus.renamed f).beforeDot? = focus.beforeDot?.map (List.map (Token.renamed f)) := by
  obtain ⟨before, t, after⟩ := focus
  by_cases hdot : t.kind = .dot
  · simp [beforeDot?, renamed, hdot]
  · cases before with
    | nil => simp [beforeDot?, renamed, hdot]
    | cons x earlier =>
        by_cases hx : x.kind = .dot <;> cases hword : t.kind.isWord <;>
          simp [beforeDot?, renamed, hdot, hx, hword]

lemma dottedNames_renamed (before : List Token) :
    dottedNames (before.map (Token.renamed f)) =
      ((dottedNames before).1.map f, (dottedNames before).2.map f) := by
  rcases before with _ | ⟨near, _ | ⟨dot, _ | ⟨far, rest⟩⟩⟩
  · rfl
  · simp [dottedNames, Token.word?_renamed]
  · simp [dottedNames, Token.word?_renamed]
  · by_cases hdot : dot.kind = .dot <;>
      cases hnear : near.word? <;> cases hfar : far.word? <;>
      simp [dottedNames, Token.word?_renamed, hdot, hnear, hfar]

end Renaming

/-- The part of a word up to the cursor in a folded query. -/
lemma wordBefore_folded (sql : List Char) (t : Token) (cursor : ℕ) :
    wordBefore (sql.map Char.toLower) (t.renamed folded) cursor =
      folded (wordBefore sql t cursor) := by
  rw [wordBefore, wordBefore, Token.stop_renamed, Token.start_renamed, slice?_map_toLower]
  split_ifs
  · rfl
  · cases hslice : slice? sql t.start cursor with
    | none => rfl
    | some part =>
        rcases part with _ | ⟨c, name⟩
        · rfl
        · by_cases hc : c = '\x60'
          · subst hc
            exact (folded_ofList name).symm
          · have hc' : c.toLower ≠ '\x60' := mt (toLower_eq_iff (by decide)).mp hc
            simp only [Option.map_some, Option.getD_some, List.map_cons]
            split
            · rename_i h
              exact absurd (List.cons.inj h).1 hc'
            · split
              · rename_i h
                exact absurd (List.cons.inj h).1 hc
              · exact (folded_ofList (c :: name)).symm

end Focus

/-- No other name is folded to what separates statements. -/
lemma folded_eq_separator_iff (name : String) : folded name = ";" ↔ name = ";" :=
  folded_eq_singleton_iff (d := ';') (by decide)

namespace Context

/-- The context without the case of its names. -/
def folded (context : Context) : Context :=
  { context with
    fromTables := context.fromTables.map (TableReference.renamed SqlCompletion.folded)
    targetTable := context.targetTable.map (TableReference.renamed SqlCompletion.folded)
    currentWord := SqlCompletion.folded context.currentWord
    databasePart := context.databasePart.map SqlCompletion.folded
    tablePart := context.tablePart.map SqlCompletion.folded }

lemma ofFocus_folded (sql : List Char) (cursor : ℕ) (focus : Focus) (base : Context) :
    ofFocus (sql.map Char.toLower) cursor (focus.renamed SqlCompletion.folded) base.folded =
      (ofFocus sql cursor focus base).folded := by
  have hclause := Clause.nearest_renamed SqlCompletion.folded (focus.token :: focus.before)
  have htarget := TableReference.targetBefore?_renamed SqlCompletion.folded folded_eq_separator_iff
    (focus.token :: focus.before) focus.after
  have hdot := Focus.beforeDot?_renamed SqlCompletion.folded focus
  have hword := Focus.wordBefore_folded sql focus.token cursor
  rw [List.map_cons] at hclause htarget
  have hkind : (focus.renamed SqlCompletion.folded).token.kind = focus.token.kind := rfl
  rw [ofFocus, ofFocus, hdot, hkind]
  simp only [Focus.renamed, hclause, htarget, hword, folded]
  cases focus.beforeDot? with
  | none => split_ifs <;> rfl
  | some before =>
      simp only [Option.map_some, Focus.dottedNames_renamed]
      split_ifs <;> rfl

/-- The context in a folded query is that in the query, folded. -/
lemma resolve_folded (sql : String) (cursor : ℕ) (selectedDatabase : Option String) :
    resolve (SqlCompletion.folded sql) cursor selectedDatabase =
      (resolve sql cursor selectedDatabase).folded := by
  rw [resolve, resolve, toList_folded, byteLength_map_toLower, tokenize_folded,
    TableReference.extract_renamed, Focus.ofCursor?_renamed]
  cases Focus.ofCursor? (tokenize sql) (min cursor (byteLength sql.toList)) with
  | none => rfl
  | some focus =>
      exact ofFocus_folded sql.toList _ focus
        { fromTables := TableReference.extract (tokenize sql)
          wordStart := min cursor (byteLength sql.toList)
          selectedDatabase := selectedDatabase }

end Context

end SqlCompletion
