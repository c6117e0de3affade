import Mathlib.Tactic
import SqlCompletion.TableReference.Extraction

/-!
Where the references of a query stand among its tokens.

* `TableReference.NamedBy`: the identifier that names a reference;
* `TableReference.readList_of_none`, `TableReference.readList_of_end`,
  `TableReference.readList_of_comma`: how a list is read, one reference at a time;
* `TableReference.upcoming`, `TableReference.following`: the references that are still to come where
  one may come next, and after one;
* `TableReference.extract_of_read?`, `TableReference.extract_readList`: the tokens of a reference,
  and those of a list of references, open no list;
* `TableReference.reading_induction`: induction along the reading of a query;
* `TableReference.ReadInOrder`, `TableReference.readInOrder_extract`: the references of a query are
  read one after another;
* `TableReference.exists_namedBy_of_mem_extract`: so every one is named by an identifier of the
  query;
* `TableReference.aliasPlaces_extract_sublist`: the places where an alias may be written are ends of
  tokens, in the order of the tokens.
-/

namespace SqlCompletion

lemma suffix_of_cons_suffix {t : Token} {rest tokens : List Token} (h : t :: rest <:+ tokens) :
    rest <:+ tokens :=
  (List.suffix_cons t rest).trans h

lemma skipTrivia_suffix (tokens : List Token) : skipTrivia tokens <:+ tokens :=
  List.dropWhile_suffix _

lemma suffix_of_skipTrivia {tokens rest : List Token} {t : Token}
    (h : skipTrivia tokens = t :: rest) : t :: rest <:+ tokens :=
  h ▸ skipTrivia_suffix tokens

lemma readIdentifier?_eq_some_iff {tokens rest : List Token} {t : Token} :
    readIdentifier? tokens = some (t, rest) ↔
      skipTrivia tokens = t :: rest ∧ t.kind = .identifier := by
  rw [readIdentifier?]
  split
  · rename_i first more hskip
    rw [hskip, List.cons_eq_cons]
    split_ifs with hkind
    · rw [Option.some_inj, Prod.mk.injEq]
      exact ⟨fun h => ⟨h, h.1 ▸ hkind⟩, fun h => h.1⟩
    · simp only [false_iff]
      rintro ⟨⟨rfl, -⟩, h⟩
      exact hkind h
  · rename_i hskip
    simp [hskip]

lemma suffix_of_readIdentifier? {tokens rest : List Token} {t : Token}
    (h : readIdentifier? tokens = some (t, rest)) : t :: rest <:+ tokens :=
  suffix_of_skipTrivia (readIdentifier?_eq_some_iff.mp h).1

namespace TableReference

lemma suffix_of_readName? {tokens rest : List Token} {database : Option Token} {t : Token}
    (h : readName? tokens = some ((database, t), rest)) :
    t :: rest <:+ tokens ∧ t.kind = .identifier := by
  rw [readName?] at h
  split at h
  · cases h
  · rename_i first more hfirst
    have hsuffix := suffix_of_readIdentifier? hfirst
    have hkind := (readIdentifier?_eq_some_iff.mp hfirst).2
    split at h
    · cases h
      exact ⟨hsuffix, hkind⟩
    · rename_i dot last hdot
      split_ifs at h
      · split at h
        · cases h
        · rename_i second rest' hsecond
          cases h
          have hlast : last <:+ tokens :=
            (suffix_of_cons_suffix (suffix_of_skipTrivia hdot)).trans
              (suffix_of_cons_suffix hsuffix)
          exact ⟨(suffix_of_readIdentifier? hsecond).trans hlast,
            (readIdentifier?_eq_some_iff.mp hsecond).2⟩
      · cases h
        exact ⟨hsuffix, hkind⟩

lemma skipAs_suffix (tokens : List Token) : skipAs tokens <:+ tokens := by
  rw [skipAs]
  split
  · rename_i t rest hskip
    split_ifs
    · exact suffix_of_cons_suffix (suffix_of_skipTrivia hskip)
    · exact List.suffix_refl _
  · exact List.suffix_refl _

lemma readAlias_suffix (tokens : List Token) : (readAlias tokens).2 <:+ tokens := by
  rw [readAlias]
  split
  · rename_i t rest h
    exact (suffix_of_cons_suffix (suffix_of_readIdentifier? h)).trans (skipAs_suffix tokens)
  · exact skipAs_suffix tokens

lemma read?_eq_none_iff {tokens : List Token} : read? tokens = none ↔ readName? tokens = none := by
  rw [read?]
  split <;> simp_all

lemma read?_eq_some_iff {tokens rest : List Token} {r : TableReference} :
    read? tokens = some (r, rest) ↔ ∃ database t after,
      readName? tokens = some ((database, t), after) ∧
        r = ofParts database t (readAlias after).1 ∧ rest = (readAlias after).2 := by
  rw [read?]
  split
  · rename_i h
    simp [h]
  · rename_i database t after h
    rw [h, Option.some_inj, Prod.mk.injEq]
    constructor
    · rintro ⟨rfl, rfl⟩
      exact ⟨database, t, after, rfl, rfl, rfl⟩
    · rintro ⟨database', t', after', heq, rfl, rfl⟩
      cases heq
      exact ⟨rfl, rfl⟩

/-- After a name an alias may be read, and then the reference is complete. -/
lemma read?_of_readName? {tokens after : List Token} {database : Option Token} {t : Token}
    (h : readName? tokens = some ((database, t), after)) :
    read? tokens = some (ofParts database t (readAlias after).1, (readAlias after).2) :=
  read?_eq_some_iff.mpr ⟨database, t, after, h, rfl, rfl⟩

/-- The token is the name of the table, after which an alias is written or may be. -/
structure NamedBy (r : TableReference) (t : Token) : Prop where
  kind : t.kind = .identifier
  table : r.table = t.value
  nameEnd : r.nameEnd = t.stop
  aliasPlace : r.aliasPlace = if r.aliasName.isSome then none else some t.stop

/-- A reference is named by a token, after which the tokens go on. -/
lemma exists_of_read? {tokens rest : List Token} {r : TableReference}
    (h : read? tokens = some (r, rest)) :
    ∃ t after, t :: after <:+ tokens ∧ rest <:+ after ∧ r.NamedBy t := by
  obtain ⟨database, t, after, hname, rfl, rfl⟩ := read?_eq_some_iff.mp h
  obtain ⟨hsuffix, hkind⟩ := suffix_of_readName? hname
  exact ⟨t, after, hsuffix, readAlias_suffix after, hkind, rfl, rfl, rfl⟩

lemma suffix_of_read? {tokens rest : List Token} {r : TableReference}
    (h : read? tokens = some (r, rest)) : rest <:+ tokens := by
  obtain ⟨t, after, hsuffix, hrest, -⟩ := exists_of_read? h
  exact hrest.trans (suffix_of_cons_suffix hsuffix)

lemma suffix_of_skipComma? {tokens rest : List Token} (h : skipComma? tokens = some rest) :
    rest <:+ tokens := by
  rw [skipComma?] at h
  split at h
  · rename_i t more hskip
    split_ifs at h
    cases h
    exact suffix_of_cons_suffix (suffix_of_skipTrivia hskip)
  · cases h

/-! ### Lists of references -/

section Lists

variable {tokens rest more : List Token} {r : TableReference}

lemma readList_of_none (h : read? tokens = none) : readList tokens = ([], tokens) := by
  rw [readList]
  split <;> simp_all

lemma readList_of_end (h : read? tokens = some (r, rest)) (hcomma : skipComma? rest = none) :
    readList tokens = ([r], rest) := by
  rw [readList]
  split
  · simp_all
  · split <;> simp_all

lemma readList_of_comma (h : read? tokens = some (r, rest)) (hcomma : skipComma? rest = some more) :
    readList tokens = (r :: (readList more).1, (readList more).2) := by
  rw [readList]
  split
  · simp_all
  · split <;> simp_all

end Lists

/-! ### The references that are still to come -/

/-- The references that are read where one may come next, and those of the rest of the query. -/
def upcoming (tokens : List Token) : List TableReference :=
  (readList tokens).1 ++ extract (readList tokens).2

/-- The references that are read after one, and those of the rest of the query. -/
def following (tokens : List Token) : List TableReference :=
  match skipComma? tokens with
  | none => extract tokens
  | some more => upcoming more

lemma extract_cons (t : Token) (rest : List Token) :
    extract (t :: rest) =
      if t.isKeyword .FROM || t.isKeyword .JOIN then upcoming rest else extract rest := by
  rw [extract]
  rfl

lemma upcoming_of_none {tokens : List Token} (h : read? tokens = none) :
    upcoming tokens = extract tokens := by
  rw [upcoming, readList_of_none h]
  rfl

lemma upcoming_of_some {tokens rest : List Token} {r : TableReference}
    (h : read? tokens = some (r, rest)) : upcoming tokens = r :: following rest := by
  rw [upcoming, following]
  cases hcomma : skipComma? rest with
  | none =>
      rw [readList_of_end h hcomma]
      rfl
  | some more =>
      rw [readList_of_comma h hcomma]
      rfl

/-- Blanks and comments are passed over. -/
lemma extract_skipTrivia (tokens : List Token) : extract (skipTrivia tokens) = extract tokens := by
  induction tokens with
  | nil => rfl
  | cons t tokens ih =>
      rw [skipTrivia, List.dropWhile_cons]
      split_ifs with ht
      · have hkeyword : (t.isKeyword .FROM || t.isKeyword .JOIN) = false := by
          cases hkind : t.kind <;> simp_all [Token.isTrivia, TokenKind.isTrivia, Token.isKeyword]
        rw [extract_cons, hkeyword]
        exact ih
      · rfl

/-- So is every token that is neither `FROM` nor `JOIN`. -/
lemma extract_of_skipTrivia {tokens rest : List Token} {t : Token}
    (h : skipTrivia tokens = t :: rest) (hfrom : t.kind ≠ .keyword .FROM)
    (hjoin : t.kind ≠ .keyword .JOIN) : extract tokens = extract rest := by
  have hkeyword : (t.isKeyword .FROM || t.isKeyword .JOIN) = false := by
    simp [Token.isKeyword, hfrom, hjoin]
  rw [← extract_skipTrivia, h, extract_cons, hkeyword]
  rfl

/-- So is an identifier. -/
lemma extract_of_readIdentifier? {tokens rest : List Token} {t : Token}
    (h : readIdentifier? tokens = some (t, rest)) : extract tokens = extract rest := by
  obtain ⟨hskip, hkind⟩ := readIdentifier?_eq_some_iff.mp h
  exact extract_of_skipTrivia hskip (by simp [hkind]) (by simp [hkind])

/-- So is a comma. -/
lemma extract_of_skipComma? {tokens more : List Token} (h : skipComma? tokens = some more) :
    extract tokens = extract more := by
  rw [skipComma?] at h
  split at h
  · rename_i t rest hskip
    split_ifs at h with hkind
    cases h
    exact extract_of_skipTrivia hskip (by simp [hkind]) (by simp [hkind])
  · cases h

lemma extract_of_readName? {tokens rest : List Token} {database : Option Token} {t : Token}
    (h : readName? tokens = some ((database, t), rest)) : extract tokens = extract rest := by
  rw [readName?] at h
  split at h
  · cases h
  · rename_i first after hfirst
    rw [extract_of_readIdentifier? hfirst]
    split at h
    · cases h
      rfl
    · rename_i dot last hdot
      split_ifs at h with hkind
      · rw [extract_of_skipTrivia hdot (by simp [hkind]) (by simp [hkind])]
        split at h
        · cases h
        · rename_i hsecond
          cases h
          exact extract_of_readIdentifier? hsecond
      · cases h
        rfl

lemma extract_skipAs (tokens : List Token) : extract (skipAs tokens) = extract tokens := by
  rw [skipAs]
  split
  · rename_i t rest hskip
    split_ifs with has
    · have hkind : t.kind = .keyword .AS := by simpa [Token.isKeyword] using has
      exact (extract_of_skipTrivia hskip (by simp [hkind]) (by simp [hkind])).symm
    · rfl
  · rfl

lemma extract_readAlias (tokens : List Token) : extract (readAlias tokens).2 = extract tokens := by
  rw [readAlias]
  split
  · rename_i h
    rw [← extract_skipAs tokens, extract_of_readIdentifier? h]
  · exact extract_skipAs tokens

/-- The tokens of a reference open no list of references. -/
lemma extract_of_read? {tokens rest : List Token} {r : TableReference}
    (h : read? tokens = some (r, rest)) : extract tokens = extract rest := by
  obtain ⟨database, t, after, hname, -, rfl⟩ := read?_eq_some_iff.mp h
  calc
    extract tokens = extract after := extract_of_readName? hname
    _ = extract (readAlias after).2 := (extract_readAlias after).symm

/-- Nothing in a list begins another: after it come all references that come where it begins. -/
lemma extract_readList (tokens : List Token) : extract (readList tokens).2 = extract tokens := by
  fun_induction readList tokens with
  | case1 => rfl
  | case2 tokens r rest hread _ => exact (extract_of_read? hread).symm
  | case3 tokens r rest hread more hcomma others after hothers ih =>
      rw [hothers] at ih
      rw [ih, ← extract_of_skipComma? hcomma, extract_of_read? hread]

lemma upcoming_eq (tokens : List Token) :
    upcoming tokens = (readList tokens).1 ++ extract tokens := by
  rw [upcoming, extract_readList]

/-- Without a reference after the next comma, what follows is what the query goes on with. -/
lemma following_of_bind_eq_none {tokens : List Token}
    (h : (skipComma? tokens).bind read? = none) : following tokens = extract tokens := by
  rw [following]
  cases hcomma : skipComma? tokens with
  | none => rfl
  | some more =>
      rw [hcomma, Option.bind_some] at h
      rw [extract_of_skipComma? hcomma]
      exact upcoming_of_none h

/-- Induction along the reading of a query: `E` where a list of references may begin, `U` where the
next reference of a list may come. -/
lemma reading_induction {E U : List Token → Prop} (nil : E [])
    (opens : ∀ t rest, (t.isKeyword .FROM || t.isKeyword .JOIN) = true → U rest → E (t :: rest))
    (passes : ∀ t rest, (t.isKeyword .FROM || t.isKeyword .JOIN) = false → E rest → E (t :: rest))
    (none : ∀ tokens, read? tokens = none → E tokens → U tokens)
    (reads : ∀ tokens r rest, read? tokens = some (r, rest) → E rest →
      (∀ more, skipComma? rest = some more → U more) → U tokens)
    (tokens : List Token) : E tokens ∧ U tokens := by
  induction hn : tokens.length using Nat.strong_induction_on generalizing tokens with
  | _ n ih =>
      have hE : E tokens := by
        cases tokens with
        | nil => exact nil
        | cons t rest =>
            have hrest := ih rest.length (by simp [← hn]) rest rfl
            by_cases ht : (t.isKeyword .FROM || t.isKeyword .JOIN) = true
            · exact opens t rest ht hrest.2
            · exact passes t rest (by simpa using ht) hrest.1
      refine ⟨hE, ?_⟩
      cases hread : read? tokens with
      | none => exact none tokens hread hE
      | some x =>
          obtain ⟨r, rest⟩ := x
          have hlt := length_read?_lt hread
          have hrest := ih rest.length (by omega) rest rfl
          refine reads tokens r rest hread hrest.1 fun more hcomma => ?_
          have hlt' := length_skipComma?_lt hcomma
          exact (ih more.length (by omega) more rfl).2

/-! ### One reference after another -/

/-- References are read one after another, each somewhere in the tokens that are left after the one
before it. -/
inductive ReadInOrder : List Token → List TableReference → Prop
  | nil {tokens} : ReadInOrder tokens []
  | cons {tokens start r rest refs} : start <:+ tokens → read? start = some (r, rest) →
      ReadInOrder rest refs → ReadInOrder tokens (r :: refs)

namespace ReadInOrder

variable {tokens rest : List Token} {refs : List TableReference}

lemma of_suffix (h : ReadInOrder rest refs) (hrest : rest <:+ tokens) :
    ReadInOrder tokens refs := by
  cases h with
  | nil => exact .nil
  | cons hstart hread hrefs => exact .cons (hstart.trans hrest) hread hrefs

/-- Each of them is named by one of the tokens. -/
lemma exists_namedBy (h : ReadInOrder tokens refs) {r : TableReference} (hr : r ∈ refs) :
    ∃ t ∈ tokens, r.NamedBy t := by
  induction h with
  | nil => simp at hr
  | cons hstart hread hrefs ih =>
      rcases List.mem_cons.mp hr with rfl | hr
      · obtain ⟨t, after, hsuffix, -, hnamed⟩ := exists_of_read? hread
        exact ⟨t, hstart.mem (hsuffix.mem (List.mem_cons_self ..)), hnamed⟩
      · obtain ⟨t, ht, hnamed⟩ := ih hr
        exact ⟨t, hstart.mem ((suffix_of_read? hread).mem ht), hnamed⟩

end ReadInOrder

/-- The references of a query are read one after another, and so are those that come where one may
come next. -/
lemma readInOrder_extract_and_upcoming (tokens : List Token) :
    ReadInOrder tokens (extract tokens) ∧ ReadInOrder tokens (upcoming tokens) := by
  refine reading_induction (E := fun tokens => ReadInOrder tokens (extract tokens))
    (U := fun tokens => ReadInOrder tokens (upcoming tokens)) ?nil ?opens ?passes ?none ?reads
    tokens
  case nil =>
      rw [extract]
      exact .nil
  case opens =>
      intro t rest ht ih
      rw [extract_cons, if_pos ht]
      exact ih.of_suffix (List.suffix_cons t rest)
  case passes =>
      intro t rest ht ih
      rw [extract_cons, ht]
      exact ih.of_suffix (List.suffix_cons t rest)
  case none =>
      intro tokens hread ih
      rwa [upcoming_of_none hread]
  case reads =>
      intro tokens r rest hread ih ihmore
      rw [upcoming_of_some hread]
      refine .cons (List.suffix_refl tokens) hread ?_
      rw [following]
      cases hcomma : skipComma? rest with
      | none => exact ih
      | some more => exact (ihmore more hcomma).of_suffix (suffix_of_skipComma? hcomma)

lemma readInOrder_extract (tokens : List Token) : ReadInOrder tokens (extract tokens) :=
  (readInOrder_extract_and_upcoming tokens).1

lemma exists_namedBy_of_mem_extract {tokens : List Token} {r : TableReference}
    (h : r ∈ extract tokens) : ∃ t ∈ tokens, r.NamedBy t :=
  (readInOrder_extract tokens).exists_namedBy h

/-! ### The order of the places -/

/-- The places where references want an alias. -/
def aliasPlaces (refs : List TableReference) : List ℕ :=
  refs.filterMap aliasPlace

@[simp] lemma aliasPlaces_cons (r : TableReference) (refs : List TableReference) :
    aliasPlaces (r :: refs) = r.aliasPlace.toList ++ aliasPlaces refs := by
  cases h : r.aliasPlace <;> simp [aliasPlaces, h]

/-- The name of a reference ends before the tokens that are left after it. -/
lemma nameEnd_read?_sublist {tokens rest : List Token} {r : TableReference}
    (h : read? tokens = some (r, rest)) :
    (r.nameEnd :: rest.map Token.stop).Sublist (tokens.map Token.stop) := by
  obtain ⟨t, after, hsuffix, hrest, hnamed⟩ := exists_of_read? h
  rw [hnamed.nameEnd]
  exact ((hrest.sublist.map Token.stop).cons_cons t.stop).trans (hsuffix.sublist.map Token.stop)

/-- An alias may be written where the name ends. -/
lemma aliasPlace_sublist_of_read? {tokens rest : List Token} {r : TableReference}
    (h : read? tokens = some (r, rest)) : r.aliasPlace.toList.Sublist [r.nameEnd] := by
  obtain ⟨t, after, -, -, hnamed⟩ := exists_of_read? h
  rw [hnamed.aliasPlace, hnamed.nameEnd]
  split_ifs
  · exact List.nil_sublist _
  · exact List.Sublist.refl _

namespace ReadInOrder

variable {tokens : List Token} {refs : List TableReference}

/-- The names of references end at ends of tokens, in the order of the tokens. -/
lemma nameEnds_sublist (h : ReadInOrder tokens refs) :
    (refs.map nameEnd).Sublist (tokens.map Token.stop) := by
  induction h with
  | nil => exact List.nil_sublist _
  | cons hstart hread hrefs ih =>
      exact (ih.cons_cons _).trans
        ((nameEnd_read?_sublist hread).trans (hstart.sublist.map Token.stop))

/-- The places where references want an alias are ends of tokens, in their order. -/
lemma aliasPlaces_sublist (h : ReadInOrder tokens refs) :
    (aliasPlaces refs).Sublist (tokens.map Token.stop) := by
  induction h with
  | nil => exact List.nil_sublist _
  | cons hstart hread hrefs ih =>
      rw [aliasPlaces_cons]
      exact ((aliasPlace_sublist_of_read? hread).append ih).trans
        ((nameEnd_read?_sublist hread).trans (hstart.sublist.map Token.stop))

end ReadInOrder

lemma aliasPlaces_extract_sublist (tokens : List Token) :
    (aliasPlaces (extract tokens)).Sublist (tokens.map Token.stop) :=
  (readInOrder_extract tokens).aliasPlaces_sublist

lemma aliasPlaces_upcoming_sublist (tokens : List Token) :
    (aliasPlaces (upcoming tokens)).Sublist (tokens.map Token.stop) :=
  (readInOrder_extract_and_upcoming tokens).2.aliasPlaces_sublist

lemma aliasPlaces_following_sublist (tokens : List Token) :
    (aliasPlaces (following tokens)).Sublist (tokens.map Token.stop) := by
  rw [following]
  cases hcomma : skipComma? tokens with
  | none => exact aliasPlaces_extract_sublist tokens
  | some more =>
      exact (aliasPlaces_upcoming_sublist more).trans
        ((suffix_of_skipComma? hcomma).sublist.map Token.stop)

/-- After a name and a dot, all places come later than this name. -/
lemma aliasPlaces_upcoming_sublist_of_dot {tokens rest more : List Token} {first dot : Token}
    (hfirst : readIdentifier? tokens = some (first, rest)) (hdot : skipTrivia rest = dot :: more)
    (hkind : dot.kind = .dot) :
    (aliasPlaces (upcoming tokens)).Sublist (rest.map Token.stop) := by
  obtain ⟨hskip, hidentifier⟩ := readIdentifier?_eq_some_iff.mp hfirst
  cases hread : read? tokens with
  | none =>
      rw [upcoming_of_none hread, extract_of_readIdentifier? hfirst]
      exact aliasPlaces_extract_sublist rest
  | some x =>
      obtain ⟨r, rest'⟩ := x
      obtain ⟨database, t, after, hname, rfl, rfl⟩ := read?_eq_some_iff.mp hread
      have hsecond : readIdentifier? more = some (t, after) := by
        rw [readName?, hfirst] at hname
        simp only [hdot, hkind, if_true] at hname
        split at hname
        · cases hname
        · rename_i hsecond
          cases hname
          exact hsecond
      have hmore : more <:+ rest := suffix_of_cons_suffix (suffix_of_skipTrivia hdot)
      have hsuffix : t :: after <:+ rest := (suffix_of_readIdentifier? hsecond).trans hmore
      have hplace := aliasPlace_sublist_of_read? hread
      have hfollowing := (aliasPlaces_following_sublist (readAlias after).2).trans
        ((readAlias_suffix after).sublist.map Token.stop)
      rw [upcoming_of_some hread, aliasPlaces_cons]
      exact (hplace.append hfollowing).trans (hsuffix.sublist.map Token.stop)

end TableReference

end SqlCompletion
