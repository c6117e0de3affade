import SqlCompletion.Proofs.Token.Bytewise
import SqlCompletion.Proofs.Token.Rules

/-!
Nothing of a query is lost when it is divided into tokens.

* `Tiles`: tokens lie one after another between two byte offsets, and none of them is empty;
* `tiles_tokenize`: the tokens of a query lie between its two ends;
* `slice?_of_tokenize`: what a token stands for is what it covers, but for a name in backticks;
* `tokenize_lossless`: the pieces that the tokens cover make up the query.
-/

namespace SqlCompletion

open Text

/-- Tokens that lie one after another between two byte offsets, none of them empty. -/
def Tiles (start stop : ℕ) : List Token → Prop
  | [] => start = stop
  | t :: ts => t.start = start ∧ t.start < t.stop ∧ Tiles t.stop stop ts

lemma byteLength_toList (sql : String) : byteLength sql.toList = sql.utf8ByteSize := by
  rw [← String.size_toByteArray, ← length_bytesOf, ← toList_toByteArray,
    Array.length_toList, ByteArray.size_data]

lemma tiles_placeLexemes (start : ℕ) {ls : List Lexeme} (h : ∀ l ∈ ls, l.text ≠ []) :
    Tiles start (start + byteLength (covered ls)) (placeLexemes start ls) := by
  induction ls generalizing start with
  | nil => rfl
  | cons l ls ih =>
      have hpos := byteLength_pos (h l List.mem_cons_self)
      have hrest := ih (start + byteLength l.text) fun l' hl' => h l' (List.mem_cons_of_mem l hl')
      rw [covered_cons, byteLength_append, ← Nat.add_assoc, placeLexemes_cons]
      exact ⟨rfl, Nat.lt_add_of_pos_right hpos, hrest⟩

/-- The tokens of a query lie one after another between its two ends. -/
lemma tiles_tokenize (sql : String) : Tiles 0 sql.utf8ByteSize (tokenize sql) := by
  have htiles := tiles_placeLexemes 0 fun l (hl : l ∈ lexemes sql.toList) =>
    text_ne_nil_of_mem_lexemes hl
  rwa [covered_lexemes, byteLength_toList, Nat.zero_add] at htiles

/-! ### What tokens stand for -/

/-- What a token stands for is what it covers, unless it is a name that a backtick opens. -/
lemma slice?_of_tokenize {sql : String} {t : Token} (h : t ∈ tokenize sql) :
    ∃ part, slice? sql.toList t.start t.stop = some part ∧
      (t.kind = .identifier ∧ part.head? = some '\x60' ∨ t.value = String.ofList part) := by
  obtain ⟨before, c, part, after, l, hsql, htext, hscan, rfl⟩ := exists_scan_of_tokenize h
  refine ⟨l.text, by rw [hsql]; exact slice?_append _ _ _, ?_⟩
  rcases value_eq_text_of_scan hscan with ⟨hkind, rfl⟩ | hvalue
  · exact .inl ⟨hkind, by rw [htext]; rfl⟩
  · exact .inr (by rw [Lexeme.placedAt, hvalue])

/-- Placed lexemes are cut out of the text one after another. -/
lemma map_slice?_placeLexemes (before : List Char) (ls : List Lexeme) :
    ((placeLexemes (byteLength before) ls).map fun t =>
      (t.kind, slice? (before ++ covered ls) t.start t.stop)) =
      ls.map fun l => (l.kind, some l.text) := by
  induction ls generalizing before with
  | nil => rfl
  | cons l ls ih =>
      have hrest := ih (before ++ l.text)
      rw [byteLength_append, List.append_assoc] at hrest
      rw [placeLexemes_cons, List.map_cons, covered_cons, hrest, List.map_cons]
      have hslice := slice?_append before l.text (covered ls)
      rw [Lexeme.placedAt, hslice]

/-- What is cut out of the text is what the lexemes cover. -/
lemma flatMap_slice?_placeLexemes (before : List Char) (ls : List Lexeme) :
    ((placeLexemes (byteLength before) ls).flatMap fun t =>
      (slice? (before ++ covered ls) t.start t.stop).getD []) = covered ls := by
  have hslices := congrArg (List.flatMap fun piece => piece.2.getD [])
    (map_slice?_placeLexemes before ls)
  rwa [List.flatMap_map, List.flatMap_map] at hslices

/-- **Tokens cover the query and lose nothing of it.** The tokens are those found by reading bytes,
where no cut of the text is out of range or inside a character. They lie one after another from the
start of the query to its end, each between two characters, and none is empty. Each stands for what
it covers, but for a name in backticks, and all they cover is the query. -/
theorem tokenize_lossless (sql : String) :
    tokenizeBytes? sql = some (tokenize sql) ∧
    Tiles 0 sql.utf8ByteSize (tokenize sql) ∧
    (tokenize sql = [] ↔ sql = "") ∧
    (∀ t ∈ tokenize sql, IsBoundary sql.toList t.start ∧ IsBoundary sql.toList t.stop) ∧
    (∀ t ∈ tokenize sql, ∃ part, slice? sql.toList t.start t.stop = some part ∧
      (t.kind = .identifier ∧ part.head? = some '\x60' ∨ t.value = String.ofList part)) ∧
    ((tokenize sql).flatMap fun t => (slice? sql.toList t.start t.stop).getD []) = sql.toList := by
  refine ⟨tokenizeBytes?_eq sql, tiles_tokenize sql, ?_, fun t ht => ?_,
    fun t => slice?_of_tokenize, ?_⟩
  · constructor
    · intro hnil
      have hsize := tiles_tokenize sql
      rw [hnil] at hsize
      exact String.utf8ByteSize_eq_zero_iff.mp hsize.symm
    · rintro rfl
      rw [tokenize, String.toList_empty, lexemes, placeLexemes]
  · obtain ⟨before, after, htokens⟩ := List.append_of_mem ht
    exact ⟨isBoundary_start htokens, isBoundary_stop htokens⟩
  · have hslices := flatMap_slice?_placeLexemes [] (lexemes sql.toList)
    rwa [covered_lexemes] at hslices

end SqlCompletion
