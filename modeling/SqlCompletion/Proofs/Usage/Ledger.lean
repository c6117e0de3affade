import SqlCompletion.Proofs.Usage.Format
import SqlCompletion.Proofs.Usage.Run
import SqlCompletion.Proofs.Usage.Tracker

/-!
The ledger of a run: how often each key was accepted on a connection since the connection was last
cleared, read off the history alone.

* `ledger`: the uses that a history gives to a key of a connection;
* `Balanced`: the counts in memory and in the store, of every connection, are those of the ledger;
* `Balanced.step`: every step keeps the balance, whatever comes in which order;
* `usageCount_trackerRun`: so a tracker reports, for the connection that is selected, the ledger of
  its history. Leaving a connection, coming back to it and opening the store anew change no count,
  and neither does anything that happens on another connection.
-/

namespace SqlCompletion

/-! ### The ledger of a history -/

namespace HistoryEntry

/-- The counts of the connection were cleared. -/
def clears (connection : String) (entry : HistoryEntry) : Bool :=
  entry.connection = some connection && entry.event = .clear

/-- The key was returned while the connection was selected. -/
def accepts (connection key : String) (entry : HistoryEntry) : Bool :=
  entry.connection = some connection && entry.accepted = some key

end HistoryEntry

/-- How often a key was returned while a connection was selected, since the connection was last
cleared. -/
def ledger (connection key : String) (history : List HistoryEntry) : ℕ :=
  (history.reverse.takeWhile fun entry => !entry.clears connection).countP
    (·.accepts connection key)

lemma ledger_concat (connection key : String) (history : List HistoryEntry) (entry : HistoryEntry) :
    ledger connection key (history ++ [entry]) =
      if entry.clears connection then 0
      else ledger connection key history + if entry.accepts connection key then 1 else 0 := by
  rw [ledger, ledger, List.reverse_append, List.reverse_singleton, List.singleton_append,
    List.takeWhile_cons]
  by_cases h : entry.clears connection
  · simp [h]
  · simp [h, List.countP_cons]

/-- The number of keys that were returned, on whatever connection. -/
def acceptances (history : List HistoryEntry) : ℕ :=
  history.countP (·.accepted.isSome)

/-- No key was returned more often than all keys together. -/
lemma ledger_le_acceptances (connection key : String) (history : List HistoryEntry) :
    ledger connection key history ≤ acceptances history := by
  calc
    ledger connection key history ≤ history.reverse.countP (·.accepts connection key) :=
      (List.takeWhile_prefix _).sublist.countP_le
    _ = history.countP (·.accepts connection key) := List.countP_reverse
    _ ≤ acceptances history := by
      refine List.countP_mono_left fun entry _ h => ?_
      simp only [HistoryEntry.accepts, Bool.and_eq_true, decide_eq_true_eq] at h
      simp [h.2]

/-- An entry of another connection, or one that neither returned the key nor cleared the counts,
leaves the ledger of the key as it is. -/
lemma ledger_concat_of_quiet {connection key : String} {entry : HistoryEntry}
    (h : entry.connection = some connection → entry.event ≠ .clear ∧ entry.accepted ≠ some key)
    (history : List HistoryEntry) :
    ledger connection key (history ++ [entry]) = ledger connection key history := by
  have hclears : entry.clears connection = false := by
    by_cases hc : entry.connection = some connection <;> simp [HistoryEntry.clears, hc, h]
  have haccepts : entry.accepts connection key = false := by
    by_cases hc : entry.connection = some connection <;> simp [HistoryEntry.accepts, hc, h]
  simp [ledger_concat, hclears, haccepts]

lemma ledger_append_of_quiet {connection key : String} {more : List HistoryEntry}
    (h : ∀ entry ∈ more,
      entry.connection = some connection → entry.event ≠ .clear ∧ entry.accepted ≠ some key)
    (history : List HistoryEntry) :
    ledger connection key (history ++ more) = ledger connection key history := by
  induction more generalizing history with
  | nil => rw [List.append_nil]
  | cons entry more ih =>
      rw [← List.singleton_append, ← List.append_assoc, ih fun e he => h e (by simp [he]),
        ledger_concat_of_quiet (h entry (by simp))]

/-! ### Records and their ledgers -/

/-- A record of the current version gives every key of a connection the count of the ledger. -/
structure Agrees (connection : String) (history : List HistoryEntry) (usage : UsageRecord) :
    Prop where
  version : usage.version = UsageRecord.currentVersion
  count : ∀ key, usage.count key = UInt64.ofNat (ledger connection key history)

namespace Agrees

variable {connection : String} {history : List HistoryEntry} {usage : UsageRecord}

/-- The time of the last update is no matter of counts. -/
lemma stamped (h : Agrees connection history usage) (now : Int64) :
    Agrees connection history { usage with lastUpdated := now } :=
  ⟨h.version, h.count⟩

/-- A record goes on to agree when nothing happens to its connection. -/
lemma concat_of_quiet (h : Agrees connection history usage) {entry : HistoryEntry}
    (hquiet : entry.connection = some connection → entry.event ≠ .clear ∧ entry.accepted = none) :
    Agrees connection (history ++ [entry]) usage :=
  ⟨h.version, fun key => by
    rw [h.count, ledger_concat_of_quiet fun hc => ⟨(hquiet hc).1, by simp [(hquiet hc).2]⟩]⟩

/-- Recording a use keeps up with an entry that returned its key. -/
lemma record (h : Agrees connection history usage) {entry : HistoryEntry} {key : String}
    (hconnection : entry.connection = some connection) (hevent : entry.event ≠ .clear)
    (haccepted : entry.accepted = some key) (category : Category) (now : Int64) :
    Agrees connection (history ++ [entry]) (usage.record key category now) := by
  refine ⟨h.version, fun other => ?_⟩
  have hclears : entry.clears connection = false := by simp [HistoryEntry.clears, hevent]
  have haccepts : entry.accepts connection other = decide (other = key) := by
    simp [HistoryEntry.accepts, hconnection, haccepted, eq_comm]
  rw [UsageRecord.count_record, ledger_concat, hclears, haccepts, h.count]
  by_cases hkey : other = key
  · simp [hkey]
  · simp [hkey]

/-- An empty record agrees with an entry that cleared the counts. -/
lemma empty_of_clear {entry : HistoryEntry} (hconnection : entry.connection = some connection)
    (hevent : entry.event = .clear) (now : Int64) :
    Agrees connection (history ++ [entry]) (.empty now) := by
  refine ⟨rfl, fun key => ?_⟩
  have hclears : entry.clears connection := by simp [HistoryEntry.clears, hconnection, hevent]
  rw [ledger_concat, if_pos hclears]
  rfl

end Agrees

/-! ### The balance of a session -/

/-- The record that a store gives to a connection. -/
def storedUsage (store : MemoryStore) (connection : String) (now : Int64) : UsageRecord :=
  Tracker.usageOfText (Store.read (storageKey connection) store).1 now

/-- A record of the current version is got back from where it was written, and the other
connections keep theirs. -/
lemma storedUsage_write {usage : UsageRecord} (h : usage.version = UsageRecord.currentVersion)
    (store : MemoryStore) (connection other : String) (now : Int64) :
    storedUsage (Store.write (storageKey connection) usage.render store).2 other now =
      if other = connection then usage else storedUsage store other now := by
  simp only [storedUsage, Store.write, Store.read, TextMap.find?_insert,
    storageKey_injective.eq_iff]
  split
  · simp [Tracker.usageOfText, UsageRecord.parse_render h]
  · rfl

/-- The counts in memory, and in the store those of every connection, are the counts of the
ledger. -/
structure Balanced (history : List HistoryEntry) (s : Session MemoryStore) : Prop where
  current : ∀ connection, s.tracker.connection = some connection →
    Agrees connection history s.tracker.usage
  stored : ∀ connection now, Agrees connection history (storedUsage s.tracker.store connection now)

namespace Balanced

variable {history : List HistoryEntry} {s : Session MemoryStore}

lemma fresh (window : UInt64) (now : Int64) : Balanced [] (.fresh {} window now) where
  current := by simp [Session.fresh, Tracker.start]
  stored := fun connection now => ⟨rfl, fun key => rfl⟩

/-- Persisting brings the store into balance for the connection that is selected. -/
lemma persist {tracker : Tracker MemoryStore} (now : Int64)
    (hcurrent : ∀ connection, tracker.connection = some connection →
      Agrees connection history tracker.usage)
    (hstored : ∀ connection now, tracker.connection ≠ some connection →
      Agrees connection history (storedUsage tracker.store connection now)) :
    Balanced history ⟨tracker.persist now, now⟩ := by
  cases hc : tracker.connection with
  | none =>
      have hpersist : tracker.persist now =
          { tracker with usage := { tracker.usage with lastUpdated := now } } := by
        simp only [Tracker.persist, hc]
      rw [hpersist]
      exact ⟨fun connection h => absurd (hc.symm.trans h) (by simp),
        fun connection now => hstored connection now (by simp [hc])⟩
  | some selected =>
      have hpersist : tracker.persist now =
          { tracker with
            usage := { tracker.usage with lastUpdated := now }
            store := (Store.write (storageKey selected)
              (UsageRecord.render { tracker.usage with lastUpdated := now })
              tracker.store).2 } := by
        simp only [Tracker.persist, hc]
      have hagrees := (hcurrent selected hc).stamped now
      rw [hpersist]
      refine ⟨fun connection h => ?_, fun connection now => ?_⟩
      · obtain rfl : selected = connection := Option.some.inj (hc.symm.trans h)
        exact hagrees
      · rw [storedUsage_write hagrees.version]
        split
        · subst connection
          exact hagrees
        · rename_i hother
          exact hstored connection now fun h => hother (Option.some.inj (h.symm.trans hc))

/-- A step that neither returns a key nor clears the counts adds nothing to any ledger. -/
lemma concat_of_quiet {event : TrackerEvent} (hevent : event ≠ .clear)
    (hnone : (s.step event).1 = none) (h : Balanced history (s.step event).2) :
    Balanced (history ++ [s.entry event]) (s.step event).2 where
  current connection hc := (h.current connection hc).concat_of_quiet fun _ => ⟨hevent, hnone⟩
  stored connection now := (h.stored connection now).concat_of_quiet fun _ => ⟨hevent, hnone⟩

lemma switch (h : Balanced history s) (connection : String) :
    Balanced history ⟨s.tracker.switch connection s.now, s.now⟩ := by
  by_cases hsame : s.tracker.connection = some connection
  · rw [Tracker.switch, if_pos hsame]
    exact ⟨h.current, h.stored⟩
  · rw [Tracker.switch, if_neg hsame]
    refine ⟨fun selected hselected => ?_, h.stored⟩
    obtain rfl : connection = selected := Option.some.inj hselected
    exact h.stored connection s.now

/-- The balance is kept by an edit: of the connection that is selected, the ledger and the record
count the same key, and the other connections are not touched. -/
lemma edit (h : Balanced history s) (edit : Edit) (document : String) :
    Balanced (history ++ [s.entry (.edit edit document)]) (s.step (.edit edit document)).2 := by
  cases hfind : s.tracker.pending.find? (s.tracker.accepts edit document s.now) with
  | none =>
      have hstep : s.step (.edit edit document) = (none, s) := by
        simp only [Session.step, Tracker.edit_of_find?_eq_none hfind]
      exact concat_of_quiet (by simp) (by rw [hstep]) (by rw [hstep]; exact h)
  | some p =>
      simp only [Session.entry, Session.step, Tracker.edit_of_find?_eq_some hfind]
      refine persist s.now (fun connection hc => ?_) fun connection now hc => ?_
      · exact (h.current connection hc).record hc (by simp) rfl p.category s.now
      · exact (h.stored connection now).concat_of_quiet fun hselected => absurd hselected hc

lemma clear (h : Balanced history s) :
    Balanced (history ++ [s.entry .clear]) (s.step .clear).2 := by
  refine persist s.now (fun connection hc => ?_) fun connection now hc => ?_
  · exact Agrees.empty_of_clear hc rfl s.now
  · exact (h.stored connection now).concat_of_quiet fun hselected => absurd hselected hc

/-- Every step keeps the balance. -/
lemma step (h : Balanced history s) (event : TrackerEvent) :
    Balanced (history ++ [s.entry event]) (s.step event).2 := by
  cases event with
  | switch connection => exact concat_of_quiet (by simp) rfl (h.switch connection)
  | moveClock now => exact concat_of_quiet (by simp) rfl ⟨h.current, h.stored⟩
  | remember suggestions range => exact concat_of_quiet (by simp) rfl ⟨h.current, h.stored⟩
  | edit edit document => exact h.edit edit document
  | clear => exact h.clear
  | reopen window =>
      refine concat_of_quiet (by simp) rfl ⟨fun connection hc => ?_, h.stored⟩
      simp [Session.step, Session.fresh, Tracker.start] at hc

end Balanced

/-! ### Runs over an empty store -/

/-- The history of a run of a new tracker over an empty store, and the session after it. -/
def trackerRun (window : UInt64) (now : Int64) (events : List TrackerEvent) :
    List HistoryEntry × Session MemoryStore :=
  (Session.fresh {} window now).run events

lemma balanced_trackerRun (window : UInt64) (now : Int64) (events : List TrackerEvent) :
    Balanced (trackerRun window now events).1 (trackerRun window now events).2 :=
  Session.run_induction (fun _ _ event h => h.step event) (Balanced.fresh window now) events

/-- **The ledger of a run.** Whatever happens to a tracker over a store that was empty and that
nobody else writes, in whatever order: the count that it reports for a key is the number of times
the key was returned while the selected connection was selected, since the counts were last cleared
while it was selected. Whatever happens next, the count stays the same until the key is returned or
the counts are cleared on this connection, also when the connection is left and selected again or
when the store is opened anew in between. -/
theorem usageCount_trackerRun (window : UInt64) (now : Int64) (events : List TrackerEvent)
    (connection key : String)
    (hfew : acceptances (trackerRun window now events).1 < 2 ^ 64)
    (hselected : (trackerRun window now events).2.tracker.connection = some connection) :
    ((trackerRun window now events).2.tracker.usage.count key).toNat =
        ledger connection key (trackerRun window now events).1 ∧
      ∀ more : List TrackerEvent,
        (∀ entry ∈ ((trackerRun window now events).2.run more).1,
          entry.connection = some connection → entry.event ≠ .clear ∧ entry.accepted ≠ some key) →
        ((trackerRun window now events).2.run more).2.tracker.connection = some connection →
        ((trackerRun window now events).2.run more).2.tracker.usage.count key =
          (trackerRun window now events).2.tracker.usage.count key := by
  have hbalanced := balanced_trackerRun window now events
  set history := (trackerRun window now events).1
  set s := (trackerRun window now events).2
  have hcount := (hbalanced.current connection hselected).count key
  refine ⟨?_, fun more hquiet hback => ?_⟩
  · have hle := ledger_le_acceptances connection key history
    rw [hcount]
    exact UInt64.toNat_ofNat_of_lt' (Nat.lt_of_le_of_lt hle hfew)
  · have hlater := Session.run_induction (fun _ _ event h => h.step event) hbalanced more
    rw [(hlater.current connection hback).count key, hcount, ledger_append_of_quiet hquiet]

/-- The key of a column that is accepted on one connection, then on another, and once more on the
first after its store was opened anew. -/
theorem usageCount_trackerRun_returning :
    (let range : Range := ⟨⟨1, 8⟩, ⟨1, 10⟩⟩
     let use : List TrackerEvent :=
       [.remember [⟨"id", .column, none⟩] range, .edit ⟨range, "id"⟩ "id"]
     let events := TrackerEvent.switch "a" :: use ++ .switch "b" :: use ++ .reopen 1000 ::
       .switch "a" :: use
     acceptances (trackerRun 1000 0 events).1 < 2 ^ 64 ∧
       (trackerRun 1000 0 events).2.tracker.connection = some "a" ∧
       ((trackerRun 1000 0 events).2.tracker.usage.count "column:id").toNat = 2) := by
  intro range use events
  have hfew : acceptances (trackerRun 1000 0 events).1 < 2 ^ 64 := by decide +kernel
  have hselected : (trackerRun 1000 0 events).2.tracker.connection = some "a" := by decide +kernel
  refine ⟨hfew, hselected, ?_⟩
  rw [(usageCount_trackerRun 1000 0 events "a" "column:id" hfew hselected).1]
  decide +kernel

end SqlCompletion
