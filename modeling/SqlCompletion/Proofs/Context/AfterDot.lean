import SqlCompletion.Proofs.Context.Word
import SqlCompletion.Proofs.Token.Rules

/-!
Where a cursor counts as standing after a dot.

* `EndsDot`: a dot of the query ends at a place;
* `FacesDot`: a dot of the query begins at a cursor where neither a word nor a dot ends;
* `Context.isAfterDot_iff`: a cursor counts as standing after a dot where one ends at the start of
  the word, and also where it faces one;
* `Context.isAfterDot_before_dot`: such a cursor, after a closing parenthesis.
-/

namespace SqlCompletion

open Text

/-- A dot of the query ends at the place. -/
def EndsDot (sql : String) (place : ℕ) : Prop :=
  ∃ t ∈ tokenize sql, t.kind = .dot ∧ t.stop = place

/-- A dot of the query begins at the place, and no word and no dot ends there. -/
def FacesDot (sql : String) (place : ℕ) : Prop :=
  (∃ t ∈ tokenize sql, t.kind = .dot ∧ t.start = place) ∧
    ∀ t ∈ tokenize sql, t.stop = place → Focus.continues t = false

instance (sql : String) (place : ℕ) : Decidable (EndsDot sql place) :=
  inferInstanceAs (Decidable (∃ t ∈ tokenize sql, t.kind = .dot ∧ t.stop = place))

instance (sql : String) (place : ℕ) : Decidable (FacesDot sql place) :=
  inferInstanceAs (Decidable (_ ∧ _))

lemma Focus.continues_of_dot {t : Token} (h : t.kind = .dot) : continues t = true := by
  simp [continues, h]

/-- A cursor that faces a dot has none before it. -/
lemma FacesDot.not_endsDot {sql : String} {place : ℕ} (h : FacesDot sql place) :
    ¬EndsDot sql place := by
  rintro ⟨t, ht, hdot, hstop⟩
  have hquiet := h.2 t ht hstop
  rw [Focus.continues_of_dot hdot] at hquiet
  cases hquiet

/-- The token around a cursor that faces a dot is this dot. -/
lemma FacesDot.kind_eq_dot {sql : String} {place : ℕ} (h : FacesDot sql place) {t : Token}
    (ht : t ∈ tokenize sql) (hcontains : t.contains place) : t.kind = .dot := by
  obtain ⟨dot, hmem, hdot, rfl⟩ := h.1
  have hlt := start_lt_stop hmem
  rw [eq_of_contains ht hmem hcontains (by simp [Token.contains, hlt]), hdot]

/-- A dot is one byte long. -/
lemma stop_of_dot {sql : String} {t : Token} (ht : t ∈ tokenize sql) (hdot : t.kind = .dot) :
    t.stop = t.start + 1 := by
  obtain ⟨before, c, part, after, l, -, htext, hscan, rfl⟩ := exists_scan_of_tokenize ht
  obtain rfl := (kind_eq_dot_iff hscan).mp hdot
  have hbytes : byteLength l.text = 1 := by
    rw [text_of_dot hscan hdot]
    rfl
  rw [Lexeme.placedAt, hbytes]

namespace Focus

variable {sql : String} {place : ℕ} {focus : Focus}

lemma isSome_beforeDot?_iff : focus.beforeDot?.isSome ↔
    focus.token.kind = .dot ∨
      focus.token.kind.isWord ∧ ∃ t ∈ focus.before.head?, t.kind = .dot := by
  rw [beforeDot?]
  split_ifs with hdot
  · simp [hdot]
  · cases focus.before with
    | nil => simp [hdot]
    | cons t earlier => simp [hdot]

/-- A dot ends where a token begins if it is the one before this token. -/
lemma endsDot_start_iff (h : ofCursor? (tokenize sql) place = some focus) :
    EndsDot sql focus.token.start ↔ ∃ t ∈ focus.before.head?, t.kind = .dot := by
  obtain ⟨htokens, -⟩ := tokens_of_ofCursor? h
  cases hbefore : focus.before with
  | nil =>
      rw [hbefore] at htokens
      rw [start_of_tokenize_cons htokens]
      constructor
      · rintro ⟨t, ht, -, hstop⟩
        have hlt := start_lt_stop ht
        omega
      · simp
  | cons x earlier =>
      rw [hbefore, List.reverse_cons, List.append_assoc, List.singleton_append] at htokens
      have hx : x ∈ tokenize sql := by simp [htokens]
      rw [start_eq_stop_of_tokenize htokens]
      constructor
      · rintro ⟨t, ht, hdot, hstop⟩
        obtain rfl := eq_of_stop_eq ht hx hstop
        exact ⟨t, rfl, hdot⟩
      · rintro ⟨t, ht, hdot⟩
        obtain rfl : x = t := by simpa using ht
        exact ⟨x, hx, hdot, rfl⟩

/-- Where a word is the token of the cursor, the cursor faces no dot. -/
lemma not_facesDot_of_isWord (hle : place ≤ byteLength sql.toList)
    (h : ofCursor? (tokenize sql) place = some focus) (hword : focus.token.kind.isWord) :
    ¬FacesDot sql place := by
  intro hfaces
  have hmem := token_mem_of_ofCursor? h
  have hcontinues : continues focus.token = true := by simp [continues, hword]
  cases stands_of_ofCursor? hle h with
  | typed hstop _ =>
      rw [hfaces.2 _ hmem hstop] at hcontinues
      cases hcontinues
  | around hcontains _ =>
      rw [hfaces.kind_eq_dot hmem hcontains] at hword
      cases hword
  | last _ hquiet _ =>
      rw [hquiet] at hcontinues
      cases hcontinues

/-- Where the token of the cursor is no word, it is a dot if one ends at the cursor or the cursor
faces one. -/
lemma kind_eq_dot_iff_of_not_isWord (hle : place ≤ byteLength sql.toList)
    (h : ofCursor? (tokenize sql) place = some focus) (hword : focus.token.kind.isWord = false) :
    focus.token.kind = .dot ↔ EndsDot sql place ∨ FacesDot sql place := by
  have hmem := token_mem_of_ofCursor? h
  cases stands_of_ofCursor? hle h with
  | typed hstop hcontinues =>
      have hdot : focus.token.kind = .dot := by simpa [continues, hword] using hcontinues
      exact iff_of_true hdot (.inl ⟨_, hmem, hdot, hstop⟩)
  | around hcontains hquiet =>
      constructor
      · intro hdot
        have hstop := stop_of_dot hmem hdot
        simp only [Token.contains, Bool.and_eq_true, decide_eq_true_eq] at hcontains
        exact .inr ⟨⟨_, hmem, hdot, by omega⟩, hquiet⟩
      · rintro (⟨t, ht, hdot, hstop⟩ | hfaces)
        · have hcontinues := hquiet t ht hstop
          rw [continues_of_dot hdot] at hcontinues
          cases hcontinues
        · exact hfaces.kind_eq_dot hmem hcontains
  | last hstop hcontinues hended =>
      have hnot : focus.token.kind ≠ .dot := by
        intro hdot
        rw [continues_of_dot hdot] at hcontinues
        cases hcontinues
      refine iff_of_false hnot ?_
      rintro (⟨t, ht, hdot, hend⟩ | ⟨⟨t, ht, -, hstart⟩, -⟩)
      · rw [eq_of_stop_eq ht hmem (hend.trans hstop.symm)] at hdot
        exact hnot hdot
      · -- no token begins at the end of the query
        have hlt := start_lt_stop ht
        have hle := hended t ht
        omega

end Focus

namespace Context

/-- A cursor counts as standing after a dot where one ends at the start of the word, or where it
faces one; not both. -/
lemma isAfterDot_or (sql : String) (cursor : ℕ) (selectedDatabase : Option String) :
    let place := min cursor (byteLength sql.toList)
    let context := resolve sql cursor selectedDatabase
    (context.isAfterDot = true ↔ EndsDot sql context.wordStart ∨ FacesDot sql place) ∧
      (FacesDot sql place → ¬EndsDot sql context.wordStart) := by
  intro place context
  have hle : place ≤ byteLength sql.toList := min_le_right _ _
  cases hfocus : Focus.ofCursor? (tokenize sql) place with
  | none =>
      -- there is no token at all
      have hnil : tokenize sql = [] := by
        by_contra hne
        obtain ⟨focus, h⟩ := Focus.exists_ofCursor? hne place
        rw [hfocus] at h
        cases h
      have hafter : context.isAfterDot = false := by simp only [context, resolve, place, hfocus]
      have hends : ∀ n, ¬EndsDot sql n := by
        rintro n ⟨t, ht, -⟩
        simp [hnil] at ht
      have hfaces : ¬FacesDot sql place := by
        rintro ⟨⟨t, ht, -⟩, -⟩
        simp [hnil] at ht
      simp [hafter, hends, hfaces]
  | some focus =>
      obtain ⟨hafter, hstart, -⟩ := resolve_of_focus hfocus selectedDatabase
      rw [show context.isAfterDot = _ from hafter, show context.wordStart = _ from hstart,
        Focus.isSome_beforeDot?_iff]
      cases hword : focus.token.kind.isWord with
      | true =>
          have hfaces := Focus.not_facesDot_of_isWord hle hfocus hword
          have hdot : focus.token.kind ≠ .dot := by
            intro hdot
            rw [hdot] at hword
            cases hword
          rw [if_pos rfl, Focus.endsDot_start_iff hfocus]
          simp [hfaces, hdot]
      | false =>
          have hdot := Focus.kind_eq_dot_iff_of_not_isWord hle hfocus hword
          rw [if_neg Bool.false_ne_true]
          exact ⟨by simpa using hdot, FacesDot.not_endsDot⟩

/-- **Where a cursor counts as standing after a dot.** It does where a dot ends at the start of the
word, or at the cursor if it is on no word. It also does where it faces a dot, with no word and no
dot before it; there, and nowhere else, it counts so although no dot ends at the start of the
word. -/
theorem isAfterDot_iff (sql : String) (cursor : ℕ) (selectedDatabase : Option String) :
    ((resolve sql cursor selectedDatabase).isAfterDot = true ↔
      EndsDot sql (resolve sql cursor selectedDatabase).wordStart ∨
        FacesDot sql (min cursor (byteLength sql.toList))) ∧
    (((resolve sql cursor selectedDatabase).isAfterDot = true ↔
        EndsDot sql (resolve sql cursor selectedDatabase).wordStart) ↔
      ¬FacesDot sql (min cursor (byteLength sql.toList))) := by
  obtain ⟨hafter, hnot⟩ := isAfterDot_or sql cursor selectedDatabase
  refine ⟨hafter, ?_⟩
  rw [hafter]
  constructor
  · intro hiff hfaces
    exact hnot hfaces (hiff.mp (.inr hfaces))
  · exact fun hfaces => or_iff_left hfaces

/-- Between a closing parenthesis and a dot the cursor counts as standing after the dot, and none
ends there. -/
theorem isAfterDot_before_dot :
    (resolve "SELECT (a).b" 10 none).isAfterDot = true ∧
      (resolve "SELECT (a).b" 10 none).wordStart = 10 ∧ ¬EndsDot "SELECT (a).b" 10 := by
  decide +kernel

end Context

end SqlCompletion
