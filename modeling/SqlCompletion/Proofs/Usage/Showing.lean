import SqlCompletion.Proofs.Usage.Run
import SqlCompletion.Proofs.Usage.Tracker

/-!
No acceptance without a showing that is still fresh, in any run of a tracker over any store.

* `HistoryEntry.Spares`: a step after which what was shown under a key may still be accepted;
* `Session.ShownAt`: the key was shown by a step of a run, and spared by all steps after it;
* `Session.mem_pending_step`: what a step leaves pending was spared by it, or shown by it;
* `Session.shownAt_of_mem_pending`: so all that is pending after a run was shown in it and spared
  since;
* `Session.returned_add_waiting_le`: a key is not returned more often than it is shown, save for
  what is pending from the start;
* `Session.shownAt_of_edit`: whenever an edit returns a key, the key was shown no longer ago than
  the match window and has been spared since. So no showing counts twice.
-/

namespace SqlCompletion

/-! ### Steps that show a key, and steps that spare it -/

namespace HistoryEntry

/-- The step takes no showing of the key away: it did not clear the counts, select another
connection, open a new tracker or return the key. -/
structure Spares (key : String) (entry : HistoryEntry) : Prop where
  not_cleared : entry.event ≠ .clear
  not_switched : ∀ connection, entry.event = .switch connection →
    entry.connection = some connection
  not_reopened : ∀ window, entry.event ≠ .reopen window
  not_returned : entry.accepted ≠ some key

/-- The step returned the key. -/
def returns (key : String) (entry : HistoryEntry) : Bool :=
  entry.accepted == some key

/-- The step showed a suggestion with the key. -/
def shows (key : String) (entry : HistoryEntry) : Bool :=
  match entry.event with
  | .remember suggestions _ => suggestions.any (·.key == key)
  | _ => false

end HistoryEntry

/-- A suggestion is not expired exactly as long as the time since it was shown, kept within 64 bits,
is not above the window. -/
lemma Pending.isExpired_eq_false_iff {p : Pending} {now : Int64} {window : UInt64} :
    p.isExpired now window = false ↔ elapsed p.shownAt now ≤ window.toNat := by
  have hmax : elapsed p.shownAt now ≤ Int64.maxValue.toInt :=
    max_le (by decide) (min_le_left _ _)
  rw [isExpired, decide_eq_false_iff_not, not_lt, le_min_iff]
  exact and_iff_left hmax

namespace Session

variable {σ : Type}

/-- One while something with the key is pending, else none. -/
def waiting (key : String) (s : Session σ) : ℕ :=
  if s.tracker.pending.any (·.key == key) then 1 else 0

lemma waiting_eq_one_of_mem {s : Session σ} {p : Pending} (h : p ∈ s.tracker.pending) :
    waiting p.key s = 1 := by
  have hany : s.tracker.pending.any (fun q => q.key == p.key) = true :=
    List.any_eq_true.mpr ⟨p, h, beq_self_eq_true _⟩
  rw [waiting, if_pos hany]

variable [Store σ]

/-- In a run, a step at the given time showed a suggestion with the key, and all steps after it
spared the key. -/
def ShownAt (start : Session σ) (events : List TrackerEvent) (key : String) (time : Int64) : Prop :=
  ∃ before suggestions range between,
    events = before ++ .remember suggestions range :: between ∧
      (∃ suggestion ∈ suggestions, suggestion.key = key) ∧
      (start.run before).2.now = time ∧
      ∀ entry ∈ ((start.run (before ++ [.remember suggestions range])).2.run between).1,
        entry.Spares key

namespace ShownAt

variable {start : Session σ} {events : List TrackerEvent} {key : String} {time : Int64}

lemma of_remember {suggestions : List Suggestion} {suggestion : Suggestion}
    (h : suggestion ∈ suggestions) (start : Session σ) (events : List TrackerEvent)
    (range : Range) :
    ShownAt start (events ++ [.remember suggestions range]) suggestion.key
      (start.run events).2.now :=
  ⟨events, suggestions, range, [], rfl, ⟨suggestion, h, rfl⟩, rfl, by simp [run]⟩

/-- A step that spares the key leaves its showing in place. -/
lemma concat (h : ShownAt start events key time) {event : TrackerEvent}
    (hspares : ((start.run events).2.entry event).Spares key) :
    ShownAt start (events ++ [event]) key time := by
  obtain ⟨before, suggestions, range, between, rfl, hshown, htime, hbetween⟩ := h
  refine ⟨before, suggestions, range, between ++ [event], by simp, hshown, htime, ?_⟩
  intro entry hentry
  have hsplit : (start.run (before ++ .remember suggestions range :: between)).2 =
      ((start.run (before ++ [.remember suggestions range])).2.run between).2 := by
    rw [List.append_cons, run_append]
  rw [run_concat, ← hsplit, List.mem_append, List.mem_singleton] at hentry
  rcases hentry with hentry | rfl
  · exact hbetween entry hentry
  · exact hspares

end ShownAt

/-! ### What one step leaves pending -/

/-- An edit spares the keys that it does not return. -/
lemma spares_edit {s : Session σ} {edit : Edit} {document key : String}
    (h : (s.tracker.edit edit document s.now).1 ≠ some key) :
    (s.entry (.edit edit document)).Spares key :=
  ⟨by simp [entry], by simp [entry], by simp [entry], h⟩

/-- What is pending after an edit was pending before it and spared by it. -/
lemma mem_pending_edit {s : Session σ} {edit : Edit} {document : String} {p : Pending}
    (h : p ∈ (s.tracker.edit edit document s.now).2.pending) :
    p ∈ s.tracker.pending ∧ (s.entry (.edit edit document)).Spares p.key := by
  cases hreturned : (s.tracker.edit edit document s.now).1 with
  | none =>
      have hpending : p ∈ s.tracker.pending := by
        rwa [Tracker.pending_of_edit_eq_none hreturned] at h
      exact ⟨hpending, spares_edit (by simp [hreturned])⟩
  | some key =>
      obtain ⟨-, -, -, -, hpending⟩ := Tracker.exists_of_edit hreturned
      rw [hpending, List.mem_filter, bne_iff_ne] at h
      exact ⟨h.1, spares_edit (by simpa [hreturned] using h.2.symm)⟩

/-- What is pending after a step was pending before it and spared by it, or is shown by it. -/
lemma mem_pending_step {s : Session σ} {event : TrackerEvent} {p : Pending}
    (h : p ∈ (s.step event).2.tracker.pending) :
    (p ∈ s.tracker.pending ∧ (s.entry event).Spares p.key) ∨
      ∃ suggestions range, event = .remember suggestions range ∧
        ∃ suggestion ∈ suggestions, p = .ofSuggestion suggestion range s.now := by
  cases event with
  | switch connection =>
      by_cases hsame : s.tracker.connection = some connection
      · rw [step, Tracker.switch, if_pos hsame] at h
        exact .inl ⟨h, by constructor <;> simp [entry, step, hsame]⟩
      · rw [step, Tracker.switch, if_neg hsame] at h
        cases h
  | moveClock now => exact .inl ⟨h, by constructor <;> simp [entry, step]⟩
  | remember suggestions range =>
      rw [step, Tracker.remember, List.mem_append, List.mem_map] at h
      rcases h with hlive | ⟨suggestion, hmem, rfl⟩
      · exact .inl ⟨(List.mem_filter.mp hlive).1, by constructor <;> simp [entry, step]⟩
      · exact .inr ⟨suggestions, range, rfl, suggestion, hmem, rfl⟩
  | edit edit document => exact .inl (mem_pending_edit h)
  | clear =>
      rw [step, Tracker.clear, Tracker.pending_persist] at h
      cases h
  | reopen window => cases h

/-! ### What a run leaves pending -/

/-- All that is pending after a run was shown in it at its time, and spared since. -/
lemma shownAt_of_mem_pending {start : Session σ} (hstart : start.tracker.pending = [])
    (events : List TrackerEvent) {p : Pending} (h : p ∈ (start.run events).2.tracker.pending) :
    ShownAt start events p.key p.shownAt := by
  induction events using List.reverseRecOn generalizing p with
  | nil =>
      rw [run, hstart] at h
      cases h
  | append_singleton events event ih =>
      rw [run_concat] at h
      rcases mem_pending_step h with ⟨hbefore, hspares⟩ | ⟨suggestions, range, rfl, s, hs, rfl⟩
      · exact (ih hbefore).concat hspares
      · exact ShownAt.of_remember hs start events range

/-! ### How often a key is returned -/

/-- Only edits return keys, and the key that an edit returns waits no longer. -/
lemma waiting_of_returns {s : Session σ} {event : TrackerEvent} {key : String}
    (h : (s.entry event).returns key = true) :
    waiting key s = 1 ∧ waiting key (s.step event).2 = 0 := by
  rw [HistoryEntry.returns, beq_iff_eq] at h
  cases event with
  | edit edit document =>
      obtain ⟨p, hp, rfl, -, hpending⟩ := Tracker.exists_of_edit h
      refine ⟨waiting_eq_one_of_mem hp, if_neg ?_⟩
      simp [step, hpending]
  | _ => cases h

/-- A step that returns a key takes away what is pending with it, and only a step that shows the key
makes something pending with it. -/
lemma returned_add_waiting_step (key : String) (s : Session σ) (event : TrackerEvent) :
    ((s.entry event).returns key).toNat + waiting key (s.step event).2 ≤
      ((s.entry event).shows key).toNat + waiting key s := by
  cases hreturns : (s.entry event).returns key with
  | true =>
      obtain ⟨hbefore, hafter⟩ := waiting_of_returns hreturns
      rw [hbefore, hafter]
      exact Nat.le_add_left 1 _
  | false =>
      by_cases hafter : (s.step event).2.tracker.pending.any (·.key == key) = true
      · obtain ⟨p, hp, hkey⟩ := List.any_eq_true.mp hafter
        obtain rfl : p.key = key := beq_iff_eq.mp hkey
        rw [waiting_eq_one_of_mem hp]
        rcases mem_pending_step hp with ⟨hbefore, -⟩ | ⟨suggestions, range, rfl, shown, hshown, rfl⟩
        · rw [waiting_eq_one_of_mem hbefore]
          exact Nat.le_add_left 1 _
        · have hshows : (s.entry (.remember suggestions range)).shows
              (Pending.ofSuggestion shown range s.now).key = true :=
            List.any_eq_true.mpr ⟨shown, hshown, beq_self_eq_true _⟩
          rw [hshows]
          exact Nat.le_add_right 1 _
      · rw [waiting, if_neg hafter]
        exact Nat.zero_le _

/-- In a run a key is not returned more often than it is shown, save for what is pending from the
start. -/
lemma returned_add_waiting_le (key : String) (s : Session σ) (events : List TrackerEvent) :
    (s.run events).1.countP (·.returns key) + waiting key (s.run events).2 ≤
      (s.run events).1.countP (·.shows key) + waiting key s := by
  induction events generalizing s with
  | nil => exact le_rfl
  | cons event events ih =>
      have hstep := returned_add_waiting_step key s event
      have hrest := ih (s.step event).2
      simp only [run, List.countP_cons]
      cases hreturns : (s.entry event).returns key <;> cases hshows : (s.entry event).shows key <;>
        simp [hreturns, hshows] at hstep ⊢ <;> omega

/-- **No acceptance without a fresh showing.** Whatever happens to a tracker over whatever store, in
whatever order: when an edit returns a key, a step before it showed a suggestion with this key, at a
time from which no more than the match window has passed, and since this step the counts were not
cleared, no other connection was selected and no edit returned the key. So one showing is never
counted twice: in the whole run, and also in what follows the edit, the key is not returned more
often than it is shown. -/
theorem shownAt_of_edit (store : σ) (window : UInt64) (now : Int64) (events : List TrackerEvent)
    (edit : Edit) (document key : String)
    (h : (((fresh store window now).run events).2.step (.edit edit document)).1 = some key) :
    let start := fresh store window now
    let s := (start.run events).2
    (∃ time, start.ShownAt events key time ∧ elapsed time s.now ≤ s.tracker.window.toNat) ∧
      ∀ more : List TrackerEvent,
        let whole := (start.run (events ++ .edit edit document :: more)).1
        let later := ((s.step (.edit edit document)).2.run more).1
        whole.countP (·.returns key) ≤ whole.countP (·.shows key) ∧
          later.countP (·.returns key) ≤ later.countP (·.shows key) := by
  intro start s
  refine ⟨?_, fun more => ⟨?_, ?_⟩⟩
  · obtain ⟨p, hp, rfl, hexpired, -⟩ := Tracker.exists_of_edit h
    exact ⟨p.shownAt, shownAt_of_mem_pending rfl events hp,
      Pending.isExpired_eq_false_iff.mp hexpired⟩
  · have hle := returned_add_waiting_le key start (events ++ .edit edit document :: more)
    have hstart : waiting key start = 0 := rfl
    omega
  · have hle := returned_add_waiting_le key (s.step (.edit edit document)).2 more
    have hreturns : (s.entry (.edit edit document)).returns key = true := beq_iff_eq.mpr h
    have hafter := (waiting_of_returns hreturns).2
    omega

/-- A column that is shown twice, while its connection is selected again and the clock goes back,
and then accepted. The store always fails. -/
theorem shownAt_of_edit_overlapping :
    let range : Range := ⟨⟨1, 8⟩, ⟨1, 10⟩⟩
    let events : List TrackerEvent :=
      [.switch "a", .remember [⟨"id", .column, none⟩] range, .moveClock 5000,
        .remember [⟨"name", .column, none⟩, ⟨"id", .column, none⟩] range, .switch "a",
        .moveClock (-4000)]
    let s := ((fresh UnavailableStore.mk 1000 0).run events).2
    (s.step (.edit ⟨range, "id"⟩ "id")).1 = some "column:id" ∧
      ∃ time, (fresh UnavailableStore.mk 1000 0).ShownAt events "column:id" time ∧
        elapsed time (-4000) ≤ 1000 := by
  intro range events s
  have h : (s.step (.edit ⟨range, "id"⟩ "id")).1 = some "column:id" := by decide +kernel
  exact ⟨h, (shownAt_of_edit UnavailableStore.mk 1000 0 events ⟨range, "id"⟩ "id" "column:id" h).1⟩

end Session

end SqlCompletion
