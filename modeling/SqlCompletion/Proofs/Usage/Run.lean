import Mathlib.Tactic
import SqlCompletion.Usage.Tracker

/-!
Runs of a tracker: everything that may happen to it, in any order, and what is remembered of it.

* `TrackerEvent`, `Session.step`: one thing that happens, and the tracker with its clock after it;
* `Session.run`: a whole run with its history, in which each entry tells the connection that was
  selected and the key that was returned;
* `Session.run_induction`: what holds of a history and its session and is kept by every step holds
  after every run.
-/

namespace SqlCompletion

/-- What may happen to a tracker. The clock may be set to any time, and at any moment a new tracker
may be opened on the same store. -/
inductive TrackerEvent
  | switch (connection : String)
  | moveClock (now : Int64)
  | remember (suggestions : List Suggestion) (range : Range)
  | edit (edit : Edit) (document : String)
  | clear
  | reopen (window : UInt64)
  deriving DecidableEq, Repr

/-- One step of a run as it is remembered. -/
structure HistoryEntry where
  /-- The connection that was selected when it happened. -/
  connection : Option String
  event : TrackerEvent
  /-- The key that the step returned. -/
  accepted : Option String
  deriving DecidableEq, Repr

/-- A tracker with the time of its clock. -/
structure Session (σ : Type) where
  tracker : Tracker σ
  now : Int64

namespace Session

variable {σ : Type}

/-- A new tracker over a store. -/
def fresh (store : σ) (window : UInt64) (now : Int64) : Session σ :=
  ⟨.start store window now, now⟩

variable [Store σ]

/-- The key that a step returns, and the session after it. -/
def step (s : Session σ) : TrackerEvent → Option String × Session σ
  | .switch connection => (none, { s with tracker := s.tracker.switch connection s.now })
  | .moveClock now => (none, { s with now := now })
  | .remember suggestions range =>
    (none, { s with tracker := s.tracker.remember suggestions range s.now })
  | .edit edit document =>
    let (accepted, tracker) := s.tracker.edit edit document s.now
    (accepted, { s with tracker := tracker })
  | .clear => (none, { s with tracker := s.tracker.clear s.now })
  | .reopen window => (none, fresh s.tracker.store window s.now)

/-- How a step from a session is remembered. -/
def entry (s : Session σ) (event : TrackerEvent) : HistoryEntry :=
  ⟨s.tracker.connection, event, (s.step event).1⟩

/-- The history of a run, and the session after it. -/
def run (s : Session σ) : List TrackerEvent → List HistoryEntry × Session σ
  | [] => ([], s)
  | event :: events =>
    let (history, last) := (s.step event).2.run events
    (s.entry event :: history, last)

/-- A run in two parts. -/
lemma run_append (s : Session σ) (events more : List TrackerEvent) :
    s.run (events ++ more) =
      ((s.run events).1 ++ ((s.run events).2.run more).1, ((s.run events).2.run more).2) := by
  induction events generalizing s with
  | nil => rfl
  | cons event events ih =>
      rw [List.cons_append, run, run, ih]
      rfl

/-- A run and one more step. -/
lemma run_concat (s : Session σ) (events : List TrackerEvent) (event : TrackerEvent) :
    s.run (events ++ [event]) =
      ((s.run events).1 ++ [(s.run events).2.entry event], ((s.run events).2.step event).2) :=
  run_append s events [event]

/-- What holds of a history and its session, and is kept by every step, holds after every run. -/
lemma run_induction {P : List HistoryEntry → Session σ → Prop}
    (hstep : ∀ history s event, P history s → P (history ++ [s.entry event]) (s.step event).2)
    {history : List HistoryEntry} {s : Session σ} (hstart : P history s)
    (events : List TrackerEvent) :
    P (history ++ (s.run events).1) (s.run events).2 := by
  induction events generalizing history s with
  | nil => simpa [run] using hstart
  | cons event events ih =>
      have hrest := ih (hstep history s event hstart)
      rw [List.append_assoc] at hrest
      exact hrest

end Session

end SqlCompletion
