import Mathlib.Tactic
import SqlCompletion.Proofs.TableReference.Places

/-!
References are read without looking at names.

* `Token.renamed`, `TableReference.renamed`: a token and a reference with every name replaced;
* `Clause.nearest_renamed`: the clause of a place is the same whatever the names;
* `TableReference.extract_renamed`, `TableReference.targetBefore?_renamed`: the references of
  renamed tokens and the target of a place are those of the tokens, renamed.
-/

namespace SqlCompletion

/-- The token with another text in the same place. -/
def Token.renamed (f : String → String) (t : Token) : Token :=
  { t with value := f t.value }

section Renaming

variable (f : String → String)

@[simp] lemma Token.kind_renamed (t : Token) : (t.renamed f).kind = t.kind := rfl

@[simp] lemma Token.value_renamed (t : Token) : (t.renamed f).value = f t.value := rfl

@[simp] lemma Token.start_renamed (t : Token) : (t.renamed f).start = t.start := rfl

@[simp] lemma Token.stop_renamed (t : Token) : (t.renamed f).stop = t.stop := rfl

@[simp] lemma Token.isKeyword_renamed (t : Token) (k : Keyword) :
    (t.renamed f).isKeyword k = t.isKeyword k := rfl

lemma Token.word?_renamed (t : Token) : (t.renamed f).word? = t.word?.map f := by
  by_cases h : t.kind.isWord <;> simp [Token.word?, h]

lemma skipTrivia_renamed (tokens : List Token) :
    skipTrivia (tokens.map (Token.renamed f)) = (skipTrivia tokens).map (Token.renamed f) := by
  rw [skipTrivia, List.dropWhile_map]
  rfl

lemma readIdentifier?_renamed (tokens : List Token) :
    readIdentifier? (tokens.map (Token.renamed f)) =
      (readIdentifier? tokens).map fun read =>
        (read.1.renamed f, read.2.map (Token.renamed f)) := by
  rw [readIdentifier?, readIdentifier?, skipTrivia_renamed]
  cases skipTrivia tokens with
  | nil => rfl
  | cons t rest =>
      by_cases h : t.kind = .identifier <;> simp [h]

/-- The keyword before a place stands whatever the names. -/
lemma lastKeyword?_renamed (earlier : List Token) :
    lastKeyword? (earlier.map (Token.renamed f)) = lastKeyword? earlier := by
  have hfind : (fun t => !t.isTrivia) ∘ Token.renamed f = fun t => !t.isTrivia := rfl
  rw [lastKeyword?, lastKeyword?, List.find?_map, hfind, Option.bind_map]
  rfl

/-- The clause of a place is the same whatever the names. -/
lemma Clause.nearest_renamed (before : List Token) :
    Clause.nearest (before.map (Token.renamed f)) = Clause.nearest before := by
  induction before with
  | nil => rfl
  | cons t before ih =>
      rw [List.map_cons, Clause.nearest, Clause.nearest, lastKeyword?_renamed, ih,
        Token.kind_renamed]

namespace TableReference

/-- The reference with every name in it replaced. -/
def renamed (r : TableReference) : TableReference :=
  { r with database := r.database.map f, table := f r.table, aliasName := r.aliasName.map f }

lemma readName?_renamed (tokens : List Token) :
    readName? (tokens.map (Token.renamed f)) =
      (readName? tokens).map fun read =>
        ((read.1.1.map (Token.renamed f), read.1.2.renamed f), read.2.map (Token.renamed f)) := by
  rw [readName?, readName?, readIdentifier?_renamed]
  cases readIdentifier? tokens with
  | none => rfl
  | some first =>
      simp only [Option.map_some, skipTrivia_renamed]
      cases skipTrivia first.2 with
      | nil => rfl
      | cons t more =>
          by_cases h : t.kind = .dot
          · simp only [List.map_cons, Token.kind_renamed, if_pos h, readIdentifier?_renamed]
            cases readIdentifier? more <;> rfl
          · simp [h]

lemma skipAs_renamed (tokens : List Token) :
    skipAs (tokens.map (Token.renamed f)) = (skipAs tokens).map (Token.renamed f) := by
  rw [skipAs, skipAs, skipTrivia_renamed]
  cases skipTrivia tokens with
  | nil => rfl
  | cons t rest =>
      by_cases h : t.isKeyword .AS <;> simp [h]

lemma readAlias_renamed (tokens : List Token) :
    readAlias (tokens.map (Token.renamed f)) =
      ((readAlias tokens).1.map f, (readAlias tokens).2.map (Token.renamed f)) := by
  rw [readAlias, readAlias, skipAs_renamed, readIdentifier?_renamed]
  cases readIdentifier? (skipAs tokens) <;> rfl

lemma ofParts_renamed (database : Option Token) (table : Token) (aliasName : Option String) :
    ofParts (database.map (Token.renamed f)) (table.renamed f) (aliasName.map f) =
      (ofParts database table aliasName).renamed f := by
  simp only [ofParts, renamed, Option.map_map, Token.stop_renamed, Token.value_renamed,
    Option.isSome_map]
  rfl

/-- One reference is read from renamed tokens as from the tokens, save for the names. -/
lemma read?_renamed (tokens : List Token) :
    read? (tokens.map (Token.renamed f)) =
      (read? tokens).map fun read => (read.1.renamed f, read.2.map (Token.renamed f)) := by
  rw [read?, read?, readName?_renamed]
  cases readName? tokens with
  | none => rfl
  | some name =>
      simp only [Option.map_some, readAlias_renamed, ofParts_renamed]

lemma skipComma?_renamed (tokens : List Token) :
    skipComma? (tokens.map (Token.renamed f)) =
      (skipComma? tokens).map (List.map (Token.renamed f)) := by
  rw [skipComma?, skipComma?, skipTrivia_renamed]
  cases skipTrivia tokens with
  | nil => rfl
  | cons t rest =>
      by_cases h : t.kind = .comma <;> simp [h]

/-- A list of references is read from renamed tokens as from the tokens, save for the names. -/
lemma readList_renamed (tokens : List Token) :
    readList (tokens.map (Token.renamed f)) =
      ((readList tokens).1.map (renamed f), (readList tokens).2.map (Token.renamed f)) := by
  fun_induction readList tokens with
  | case1 tokens hread =>
      rw [readList_of_none (by rw [read?_renamed, hread, Option.map_none]), List.map_nil]
  | case2 tokens r rest hread hcomma =>
      rw [readList_of_end (by rw [read?_renamed, hread, Option.map_some])
        (by rw [skipComma?_renamed, hcomma, Option.map_none]), List.map_singleton]
  | case3 tokens r rest hread more hcomma others after hmore ih =>
      rw [readList_of_comma (by rw [read?_renamed, hread, Option.map_some])
        (by rw [skipComma?_renamed, hcomma, Option.map_some]), ih, hmore, List.map_cons]

/-- The references of a query do not depend on names. -/
lemma extract_renamed (tokens : List Token) :
    extract (tokens.map (Token.renamed f)) = (extract tokens).map (renamed f) := by
  induction tokens with
  | nil => simp [extract]
  | cons t rest ih =>
      have hupcoming : upcoming (rest.map (Token.renamed f)) =
          (upcoming rest).map (renamed f) := by
        rw [upcoming_eq, upcoming_eq, readList_renamed, ih, List.map_append]
      rw [List.map_cons, extract_cons, extract_cons, Token.isKeyword_renamed,
        Token.isKeyword_renamed, hupcoming, ih]
      split_ifs <;> rfl

/-- The target of a statement does not depend on names, as long as none reads as a separator. -/
lemma targetBefore?_renamed (hseparator : ∀ name, f name = ";" ↔ name = ";")
    (before after : List Token) :
    targetBefore? (before.map (Token.renamed f)) (after.map (Token.renamed f)) =
      (targetBefore? before after).map (renamed f) := by
  induction before generalizing after with
  | nil => rfl
  | cons t earlier ih =>
      have hsame : isSeparator (t.renamed f) = isSeparator t := by
        rw [isSeparator, isSeparator, Token.kind_renamed, Token.value_renamed]
        congr 1
        rw [Bool.eq_iff_iff, beq_iff_eq, beq_iff_eq, hseparator]
      rw [List.map_cons, targetBefore?, targetBefore?, hsame, lastKeyword?_renamed,
        Token.isKeyword_renamed, Token.isKeyword_renamed, read?_renamed, ← List.map_cons, ih]
      split_ifs
      · rfl
      · rw [Option.map_map, Option.map_map]
        rfl
      · rfl

end TableReference

end Renaming

end SqlCompletion
