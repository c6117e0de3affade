import SqlCompletion.Proofs.Store.Lawful
import SqlCompletion.Proofs.Usage.Run
import SqlCompletion.Proofs.Usage.Tracker

/-!
The failures of a store never reach a tracker, as long as no connection is entered twice.

* `TrackerCall`, `Session.transcript`: what may be asked of a tracker, and a run as it is seen from
  outside: after each call its answer, the connection, the counts and what is pending;
* `entered`: the connections that a run enters;
* `Tracker.detached`: the tracker without its store, over one that always fails;
* `Session.transcript_detached`: a run that enters each connection once looks the same without the
  store;
* `Session.transcript_eq`: so it looks the same over every store that is empty at first, and
  whichever operations fail.
-/

namespace SqlCompletion

open LawfulStore

/-! ### Runs as they are seen from outside -/

/-- What may be asked of a tracker. -/
inductive TrackerCall
  /-- Something happens to it. -/
  | event (event : TrackerEvent)
  /-- By what a label is sorted. -/
  | sortKey (label : String) (category : Category)
  /-- In what order suggestions stand. -/
  | rank (suggestions : List Suggestion)

/-- What a call gives back. -/
inductive TrackerAnswer
  | accepted (key : Option String)
  | sortKey (text : String)
  | ranked (suggestions : List Ranked)
  deriving DecidableEq

/-- What can be seen of a tracker. -/
structure TrackerView where
  connection : Option String
  usage : UsageRecord
  pending : List Pending
  deriving DecidableEq

namespace TrackerCall

/-- The connection that is selected after a call. A tracker that is opened anew has none. -/
def connectionAfter (current : Option String) : TrackerCall → Option String
  | .event (.switch connection) => some connection
  | .event (.reopen _) => none
  | _ => current

end TrackerCall

/-- The connections that calls enter, one after another. To select the current connection is not to
enter it. -/
def entered (current : Option String) : List TrackerCall → List String
  | [] => []
  | call :: calls =>
    let next := call.connectionAfter current
    (if next = current then [] else next.toList) ++ entered next calls

/-- The tracker as it is seen. -/
def Tracker.view {σ : Type} (tracker : Tracker σ) : TrackerView :=
  ⟨tracker.connection, tracker.usage, tracker.pending⟩

/-- The tracker without its store, over one that always fails. -/
def Tracker.detached {σ : Type} (tracker : Tracker σ) : Tracker UnavailableStore :=
  ⟨{}, tracker.window, tracker.connection, tracker.usage, tracker.pending⟩

namespace Session

variable {σ : Type}

/-- The session without its store. -/
def detached (s : Session σ) : Session UnavailableStore :=
  ⟨s.tracker.detached, s.now⟩

variable [Store σ]

/-- The answer to a call, and the session after it. -/
def call (s : Session σ) : TrackerCall → TrackerAnswer × Session σ
  | .event event =>
    let (accepted, next) := s.step event
    (.accepted accepted, next)
  | .sortKey label category => (.sortKey (s.tracker.sortKeyOf label category), s)
  | .rank suggestions => (.ranked (s.tracker.rank suggestions), s)

/-- The answer to each call, and what is seen of the tracker after it. -/
def transcript (s : Session σ) : List TrackerCall → List (TrackerAnswer × TrackerView)
  | [] => []
  | call :: calls =>
    let (answer, next) := s.call call
    (answer, next.tracker.view) :: next.transcript calls

end Session

/-! ### Without the store -/

namespace Tracker

variable {σ : Type} [Store σ]

lemma detached_persist (tracker : Tracker σ) (now : Int64) :
    (tracker.persist now).detached = tracker.detached.persist now := by
  cases hconnection : tracker.connection <;> simp [persist, detached, hconnection, Store.write]

/-- An edit is accepted, and counted, whatever the store does. -/
lemma edit_detached (tracker : Tracker σ) (edit : Edit) (document : String) (now : Int64) :
    (tracker.edit edit document now).1 = (tracker.detached.edit edit document now).1 ∧
      (tracker.edit edit document now).2.detached =
        (tracker.detached.edit edit document now).2 := by
  cases hfind : tracker.pending.find? (tracker.accepts edit document now) with
  | none =>
      have hdetached : tracker.detached.pending.find?
          (tracker.detached.accepts edit document now) = none := hfind
      rw [edit_of_find?_eq_none hfind, edit_of_find?_eq_none hdetached]
      exact ⟨rfl, rfl⟩
  | some p =>
      have hdetached : tracker.detached.pending.find?
          (tracker.detached.accepts edit document now) = some p := hfind
      rw [edit_of_find?_eq_some hfind, edit_of_find?_eq_some hdetached]
      exact ⟨rfl, detached_persist _ now⟩

/-- A connection of which the store keeps nothing is entered without counts, whether the store says
so or fails. -/
lemma switch_detached [LawfulStore σ] {tracker : Tracker σ} {connection : String}
    (h : tracker.connection ≠ some connection →
      kept? (storageKey connection) tracker.store = none) (now : Int64) :
    (tracker.switch connection now).detached = tracker.detached.switch connection now := by
  by_cases hsame : tracker.connection = some connection
  · rw [switch, if_pos hsame, switch, if_pos (show tracker.detached.connection = _ from hsame)]
  · have hempty : usageOfText (Store.read (storageKey connection) tracker.store).1 now =
        .empty now := by
      rcases read_cases (storageKey connection) tracker.store with hread | ⟨e, hread⟩
      · rw [hread, h hsame]
        rfl
      · rw [hread]
        rfl
    rw [switch, if_neg hsame, switch, if_neg (show tracker.detached.connection ≠ _ from hsame)]
    simp only [detached, hempty]
    rfl

@[simp] lemma connection_persist (tracker : Tracker σ) (now : Int64) :
    (tracker.persist now).connection = tracker.connection := by
  cases hconnection : tracker.connection <;> simp [persist, hconnection]

lemma connection_edit (tracker : Tracker σ) (edit : Edit) (document : String) (now : Int64) :
    (tracker.edit edit document now).2.connection = tracker.connection := by
  cases hfind : tracker.pending.find? (tracker.accepts edit document now) with
  | none => rw [edit_of_find?_eq_none hfind]
  | some p =>
      rw [edit_of_find?_eq_some hfind, connection_persist]
      rfl

/-- Only what is kept of the connection that is selected is written. -/
lemma kept?_persist [LawfulStore σ] (tracker : Tracker σ) {other : String}
    (h : tracker.connection ≠ some other) (now : Int64) :
    kept? (storageKey other) (tracker.persist now).store =
      kept? (storageKey other) tracker.store := by
  rw [persist]
  cases hconnection : tracker.connection with
  | none => rfl
  | some connection =>
      refine kept?_write_of_ne _ _ _ _ fun heq => h ?_
      rw [hconnection, storageKey_injective heq]

/-- An edit writes nothing but what is kept of the connection that is selected. -/
lemma kept?_edit [LawfulStore σ] {tracker : Tracker σ} {other : String}
    (h : tracker.connection ≠ some other) (edit : Edit) (document : String) (now : Int64) :
    kept? (storageKey other) (tracker.edit edit document now).2.store =
      kept? (storageKey other) tracker.store := by
  cases hfind : tracker.pending.find? (tracker.accepts edit document now) with
  | none => rw [edit_of_find?_eq_none hfind]
  | some p =>
      rw [edit_of_find?_eq_some hfind]
      exact kept?_persist (tracker.counted p now) h now

end Tracker

/-! ### Calls -/

namespace Session

variable {σ : Type} [Store σ]

/-- Each call leads from the connection that is selected to that of `connectionAfter`. -/
lemma connection_call (s : Session σ) (call : TrackerCall) :
    (s.call call).2.tracker.connection = call.connectionAfter s.tracker.connection := by
  rcases call with event | - | -
  · cases event with
    | switch connection =>
        by_cases hsame : s.tracker.connection = some connection
        · simp [Session.call, step, Tracker.switch, TrackerCall.connectionAfter, hsame]
        · simp [Session.call, step, Tracker.switch, TrackerCall.connectionAfter, hsame]
    | edit edit document => exact Tracker.connection_edit s.tracker edit document s.now
    | clear => exact Tracker.connection_persist _ s.now
    | _ => rfl
  · rfl
  · rfl

variable [LawfulStore σ]

/-- A call is answered without the store as with it, and leads to the same session, unless it enters
a connection of which the store keeps something. -/
lemma call_detached (s : Session σ) (call : TrackerCall)
    (h : ∀ connection, call.connectionAfter s.tracker.connection = some connection →
      s.tracker.connection ≠ some connection →
        kept? (storageKey connection) s.tracker.store = none) :
    (s.call call).1 = (s.detached.call call).1 ∧
      (s.call call).2.detached = (s.detached.call call).2 := by
  rcases call with event | - | -
  · cases event with
    | switch connection =>
        have hafter := Tracker.switch_detached (h connection rfl) s.now
        exact ⟨rfl, congrArg (Session.mk · s.now) hafter⟩
    | edit edit document =>
        obtain ⟨hanswer, hafter⟩ := Tracker.edit_detached s.tracker edit document s.now
        exact ⟨congrArg TrackerAnswer.accepted hanswer, congrArg (Session.mk · s.now) hafter⟩
    | clear => exact ⟨rfl, congrArg (Session.mk · s.now) (Tracker.detached_persist _ s.now)⟩
    | _ => exact ⟨rfl, rfl⟩
  · exact ⟨rfl, rfl⟩
  · exact ⟨rfl, rfl⟩

/-- A call writes nothing but what is kept of the connection that is selected. -/
lemma kept?_call {s : Session σ} {other : String} (h : s.tracker.connection ≠ some other)
    (call : TrackerCall) :
    kept? (storageKey other) (s.call call).2.tracker.store =
      kept? (storageKey other) s.tracker.store := by
  rcases call with event | - | -
  · cases event with
    | switch connection =>
        by_cases hsame : s.tracker.connection = some connection
        · simp [Session.call, step, Tracker.switch, hsame]
        · simp [Session.call, step, Tracker.switch, hsame, kept?_read]
    | edit edit document => exact Tracker.kept?_edit h edit document s.now
    | clear =>
        exact Tracker.kept?_persist { s.tracker with usage := .empty s.now, pending := [] } h s.now
    | _ => rfl
  · rfl
  · rfl

/-! ### Runs -/

omit [LawfulStore σ] in
lemma transcript_cons (s : Session σ) (call : TrackerCall) (calls : List TrackerCall) :
    s.transcript (call :: calls) = ((s.call call).1, (s.call call).2.tracker.view) ::
      (s.call call).2.transcript calls := rfl

/-- A run that enters each connection once, and none of which the store keeps something at first,
looks the same without the store. -/
lemma transcript_detached (s : Session σ) {calls : List TrackerCall}
    (hkept : ∀ connection ∈ entered s.tracker.connection calls,
      kept? (storageKey connection) s.tracker.store = none)
    (hnodup : (s.tracker.connection.toList ++ entered s.tracker.connection calls).Nodup) :
    s.transcript calls = s.detached.transcript calls := by
  induction calls generalizing s with
  | nil => rfl
  | cons call calls ih =>
      set next := call.connectionAfter s.tracker.connection with hnext
      have hentered : entered s.tracker.connection (call :: calls) =
          (if next = s.tracker.connection then [] else next.toList) ++ entered next calls := rfl
      rw [hentered] at hkept hnodup
      obtain ⟨hanswer, hafter⟩ := call_detached s call fun connection hto hne => by
        refine hkept connection (List.mem_append_left _ ?_)
        rw [← hnext] at hto
        rw [if_neg (hto ▸ Ne.symm hne), hto]
        exact List.mem_singleton_self connection
      have hconnection : (s.call call).2.tracker.connection = next := connection_call s call
      have hrest : (s.call call).2.transcript calls =
          (s.call call).2.detached.transcript calls := by
        refine ih _ (fun connection hmem => ?_) ?_
        · rw [hconnection] at hmem
          have hleft : s.tracker.connection ≠ some connection := fun h => by
            have hdisjoint := List.disjoint_of_nodup_append hnodup
            exact hdisjoint (by simp [h]) (List.mem_append_right _ hmem)
          rw [kept?_call hleft]
          exact hkept connection (List.mem_append_right _ hmem)
        · rw [hconnection]
          split at hnodup
          · rename_i hsame
            rwa [hsame, List.nil_append, ← hsame] at hnodup
          · exact hnodup.of_append_right
      have hview : (s.call call).2.tracker.view = (s.detached.call call).2.tracker.view := by
        rw [← hafter]
        rfl
      rw [transcript_cons, transcript_cons, hrest, hview, hanswer, hafter]

/-- A run of a new tracker that enters no connection twice looks as if the store always failed. -/
lemma transcript_fresh {store : σ} (hempty : ∀ key, kept? key store = none)
    {calls : List TrackerCall} (honce : (entered none calls).Nodup) (window : UInt64)
    (now : Int64) :
    (fresh store window now).transcript calls =
      (fresh UnavailableStore.mk window now).transcript calls :=
  transcript_detached (fresh store window now) (fun _ _ => hempty _)
    (by simpa [fresh, Tracker.start] using honce)

/-- **The failures of a store never reach the tracker.** Take any store that keeps texts as a map
does, that keeps nothing at first, and of which any reading and any writing may fail. In every run
of a new tracker over it that enters no connection twice, each step is answered in the same way, and
leads to the same connection, counts and pending suggestions, as in the run over a store that never
fails. -/
theorem transcript_eq (store : σ) (window : UInt64) (now : Int64) (calls : List TrackerCall)
    (hempty : ∀ key, kept? key store = none) (honce : (entered none calls).Nodup) :
    (fresh store window now).transcript calls =
      (fresh (MemoryStore.mk .empty) window now).transcript calls := by
  have hmemory : ∀ key, kept? key (MemoryStore.mk .empty) = none := fun _ => rfl
  calc (fresh store window now).transcript calls
      = (fresh UnavailableStore.mk window now).transcript calls :=
        transcript_fresh hempty honce window now
    _ = (fresh (MemoryStore.mk .empty) window now).transcript calls :=
        (transcript_fresh hmemory honce window now).symm

/-- A column that is accepted on one connection, of which the counts cannot be written, and then on
another, of which they cannot be read. -/
theorem transcript_eq_unreliable :
    let range : Range := ⟨⟨1, 8⟩, ⟨1, 10⟩⟩
    let column : Suggestion := ⟨"id", .column, none⟩
    let use : List TrackerCall :=
      [.event (.remember [column] range), .event (.edit ⟨range, "id"⟩ "id"), .rank [column]]
    let calls : List TrackerCall := .event (.switch "a") :: use ++ .event (.switch "a") ::
      .event (.switch "b") :: .event (.moveClock 5) :: use ++ [.event .clear, .sortKey "id" .column]
    let store : UnreliableStore :=
      { failures := fun n => if n % 3 = 0 then none else some (.store "unreliable") }
    (∀ key, kept? key store = none) ∧ (entered none calls).Nodup ∧
      (fresh store 1000 0).transcript calls =
        (fresh (MemoryStore.mk .empty) 1000 0).transcript calls := by
  intro range column use calls store
  have honce : (entered none calls).Nodup := by decide
  exact ⟨fun _ => rfl, honce, transcript_eq store 1000 0 calls (fun _ => rfl) honce⟩

end Session

end SqlCompletion
