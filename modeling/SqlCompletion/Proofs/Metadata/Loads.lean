import Mathlib.Tactic
import SqlCompletion.Metadata.Cache
import SqlCompletion.Proofs.TextMap

/-!
When metadata is loaded, and what a request for it answers, in any run of a cache.

* `Invalidation`, `CacheCall`: what may be asked of a cache. Each request brings the source as it is
  at that moment, so that any load may fail;
* `MetadataCache.run`: a whole run with its history;
* `latest?`, `due`: the latest load that stands for a kind and a connection, and the requests before
  which none stood, both read off the history;
* `MetadataCache.request_cases`: what one request can do;
* `MetadataCache.Accounts`: the cache keeps the loads that stand, and has made those that were due;
* `MetadataCache.loadCount_request_run`: so it does after every run, and only calls for the same
  kind and connection matter.
-/

namespace SqlCompletion

/-! ### Kinds of metadata -/

/-- What is loaded of a kind. -/
abbrev MetadataKind.Value : MetadataKind → Type
  | schema => Schema
  | functions => List String
  | keywords => List String

/-- What a source answers for a kind. -/
def Source.load (source : Source) : (kind : MetadataKind) → String → Except Error kind.Value
  | .schema => source.schema
  | .functions => source.functions
  | .keywords => source.keywords

/-! ### Runs -/

/-- What is forgotten at once. -/
inductive Invalidation
  | kind (kind : MetadataKind) (connection : String)
  | connection (connection : String)
  | all
  deriving DecidableEq, Repr

/-- The kind of the connection is forgotten. -/
def Invalidation.covers (kind : MetadataKind) (connection : String) : Invalidation → Bool
  | .kind other of => other = kind && of = connection
  | .connection of => of = connection
  | .all => true

/-- What may be asked of a cache. -/
inductive CacheCall
  | request (kind : MetadataKind) (connection : String) (source : Source)
  | invalidate (what : Invalidation)

/-- One call as it is remembered. -/
inductive CacheEntry
  /-- A request, whether its source was asked, and its answer. -/
  | request (kind : MetadataKind) (connection : String) (loaded : Bool)
    (answer : Except Error (Kept kind.Value))
  | invalidate (what : Invalidation)

/-- The call asks for the kind of the connection, or has it forgotten. -/
def CacheCall.concerns (kind : MetadataKind) (connection : String) : CacheCall → Bool
  | .request other of _ => other = kind && of = connection
  | .invalidate what => what.covers kind connection

namespace CacheEntry

/-- The call asked for the kind of the connection. -/
def asks (kind : MetadataKind) (connection : String) : CacheEntry → Bool
  | .request other of _ _ => other = kind && of = connection
  | .invalidate _ => false

/-- The call had the kind of the connection forgotten. -/
def covers (kind : MetadataKind) (connection : String) : CacheEntry → Bool
  | .request .. => false
  | .invalidate what => what.covers kind connection

/-- What the call loaded of the kind for the connection. -/
def loaded? (kind : MetadataKind) (connection : String) : CacheEntry → Option (Kept kind.Value)
  | .request other of true (.ok kept) =>
    if h : other = kind ∧ of = connection then some (h.1 ▸ kept) else none
  | _ => none

lemma loaded?_of_ne {kind other : MetadataKind} {connection of : String}
    (h : ¬ (other = kind ∧ of = connection)) (loaded : Bool)
    (answer : Except Error (Kept other.Value)) :
    (request other of loaded answer).loaded? kind connection = none := by
  cases loaded <;> cases answer <;> simp [loaded?, h]

end CacheEntry

namespace MetadataCache

/-- What is kept of a kind. -/
def shelf (cache : MetadataCache) : (kind : MetadataKind) → Shelf kind.Value
  | .schema => cache.schemas
  | .functions => cache.functions
  | .keywords => cache.keywords

/-- What is kept of a kind for a connection. -/
def kept? (kind : MetadataKind) (connection : String) (cache : MetadataCache) :
    Option (Kept kind.Value) :=
  (cache.shelf kind).kept.find? connection

/-- How many loads of a kind were made for a connection. -/
def loadCount (kind : MetadataKind) (connection : String) (cache : MetadataCache) : ℕ :=
  (cache.shelf kind).loads.count connection

/-- A request for a kind. -/
def request (source : Source) (kind : MetadataKind) (connection : String)
    (cache : MetadataCache) : Except Error (Kept kind.Value) × MetadataCache :=
  match kind with
  | .schema => cache.requestSchema source connection
  | .functions => cache.requestFunctions source connection
  | .keywords => cache.requestKeywords source connection

/-- Forgets something. -/
def forget (what : Invalidation) (cache : MetadataCache) : MetadataCache :=
  match what with
  | .kind kind connection => cache.invalidate kind connection
  | .connection connection => cache.invalidateConnection connection
  | .all => cache.invalidateAll

/-- How a call is remembered, and the cache after it. A source was asked if there is one more load
than before. -/
def step (cache : MetadataCache) : CacheCall → CacheEntry × MetadataCache
  | .request kind connection source =>
    let asked := cache.request source kind connection
    let loaded := decide (cache.loadCount kind connection < asked.2.loadCount kind connection)
    (.request kind connection loaded asked.1, asked.2)
  | .invalidate what => (.invalidate what, cache.forget what)

/-- The history of a run, and the cache after it. -/
def run (cache : MetadataCache) : List CacheCall → List CacheEntry × MetadataCache
  | [] => ([], cache)
  | call :: calls =>
    let (entry, next) := cache.step call
    let (history, last) := next.run calls
    (entry :: history, last)

lemma run_cons (cache : MetadataCache) (call : CacheCall) (calls : List CacheCall) :
    cache.run (call :: calls) = ((cache.step call).1 :: ((cache.step call).2.run calls).1,
      ((cache.step call).2.run calls).2) := rfl

/-- A run and one more call. -/
lemma run_concat (cache : MetadataCache) (calls : List CacheCall) (call : CacheCall) :
    cache.run (calls ++ [call]) =
      ((cache.run calls).1 ++ [((cache.run calls).2.step call).1],
        ((cache.run calls).2.step call).2) := by
  induction calls generalizing cache with
  | nil => rfl
  | cons first calls ih =>
      rw [List.cons_append, run_cons, run_cons, ih]
      rfl

end MetadataCache

/-! ### What stands, and what is due -/

section History

variable (kind : MetadataKind) (connection : String)

/-- The latest successful load of a kind for a connection that no later invalidation covers. -/
def latest? (history : List CacheEntry) : Option (Kept kind.Value) :=
  (history.reverse.takeWhile fun entry => !entry.covers kind connection).findSome?
    (·.loaded? kind connection)

/-- The number of requests for a kind and a connection before which no successful load stands. -/
def due (history : List CacheEntry) : ℕ :=
  (List.range history.length).countP fun i =>
    history[i]?.any (·.asks kind connection) && (latest? kind connection (history.take i)).isNone

lemma latest?_concat (history : List CacheEntry) (entry : CacheEntry) :
    latest? kind connection (history ++ [entry]) =
      if entry.covers kind connection then none
      else (entry.loaded? kind connection).or (latest? kind connection history) := by
  rw [latest?, latest?, List.reverse_append, List.reverse_singleton, List.singleton_append,
    List.takeWhile_cons]
  cases hcovers : entry.covers kind connection with
  | true => rfl
  | false =>
      rw [if_pos (by rfl), List.findSome?_cons, if_neg (by simp)]
      cases entry.loaded? kind connection <;> rfl

lemma due_concat (history : List CacheEntry) (entry : CacheEntry) :
    due kind connection (history ++ [entry]) =
      due kind connection history +
        if entry.asks kind connection && (latest? kind connection history).isNone then 1
        else 0 := by
  have hbefore : ∀ i ∈ List.range history.length,
      ((history ++ [entry])[i]?.any (·.asks kind connection) &&
          (latest? kind connection ((history ++ [entry]).take i)).isNone) = true ↔
        (history[i]?.any (·.asks kind connection) &&
          (latest? kind connection (history.take i)).isNone) = true := by
    intro i hi
    have hlt := List.mem_range.mp hi
    rw [List.getElem?_append_left hlt, List.take_append_of_le_length hlt.le]
  rw [due, due, List.length_append, List.length_singleton, List.range_succ, List.countP_append,
    List.countP_congr hbefore, List.countP_singleton, List.getElem?_concat_length,
    List.take_left]
  rfl

end History

/-! ### What one call does -/

namespace Shelf

variable {α : Type} {load : String → Except Error α} {connection : String} {shelf : Shelf α}

lemma request_of_kept {kept : Kept α} (h : shelf.kept.find? connection = some kept) :
    shelf.request load connection = (.ok kept, shelf) := by
  rw [request, h]

lemma request_of_error (h : shelf.kept.find? connection = none) {e : Error}
    (hload : load connection = .error e) :
    shelf.request load connection =
      (.error (.metadata e.message), { shelf with loads := connection :: shelf.loads }) := by
  rw [request, h]
  simp only [hload]

lemma request_of_ok (h : shelf.kept.find? connection = none) {value : α}
    (hload : load connection = .ok value) :
    shelf.request load connection =
      (.ok ⟨value, shelf.loads.length⟩,
        { kept := shelf.kept.insert connection ⟨value, shelf.loads.length⟩
          loads := connection :: shelf.loads }) := by
  rw [request, h]
  simp only [hload]

/-- A request for one connection leaves the others alone. -/
lemma request_of_ne {other : String} (h : other ≠ connection) :
    (shelf.request load connection).2.kept.find? other = shelf.kept.find? other ∧
      (shelf.request load connection).2.loads.count other = shelf.loads.count other := by
  cases hkept : shelf.kept.find? connection with
  | some kept => rw [request_of_kept hkept]; exact ⟨rfl, rfl⟩
  | none =>
      cases hload : load connection with
      | error e =>
          rw [request_of_error hkept hload]
          exact ⟨rfl, List.count_cons_of_ne h.symm⟩
      | ok value =>
          rw [request_of_ok hkept hload]
          refine ⟨?_, List.count_cons_of_ne h.symm⟩
          rw [TextMap.find?_insert, if_neg h]

end Shelf

namespace MetadataCache

variable {cache : MetadataCache} {kind other : MetadataKind} {connection : String}

lemma shelf_request_self (cache : MetadataCache) (source : Source) (kind : MetadataKind)
    (connection : String) :
    (cache.request source kind connection).1 =
        ((cache.shelf kind).request (source.load kind) connection).1 ∧
      (cache.request source kind connection).2.shelf kind =
        ((cache.shelf kind).request (source.load kind) connection).2 := by
  cases kind <;> exact ⟨rfl, rfl⟩

lemma shelf_request_of_ne (h : other ≠ kind) (source : Source) :
    (cache.request source other connection).2.shelf kind = cache.shelf kind := by
  cases other <;> cases kind <;> first | rfl | exact absurd rfl h

/-- What is forgotten is gone, and all else is kept. -/
lemma kept?_forget (cache : MetadataCache) (what : Invalidation) (kind : MetadataKind)
    (connection : String) :
    (cache.forget what).kept? kind connection =
      if what.covers kind connection then none else cache.kept? kind connection := by
  have herase : ∀ of, ((cache.shelf kind).kept.erase of).find? connection =
      if of = connection then none else cache.kept? kind connection := fun of => by
    rw [TextMap.find?_erase, kept?]
    simp only [eq_comm]
  cases what with
  | kind other of =>
      by_cases hkind : other = kind
      · subst hkind
        have hshelf : (cache.forget (.kind other of)).shelf other =
            (cache.shelf other).invalidate of := by cases other <;> rfl
        rw [kept?, hshelf, Shelf.invalidate, herase]
        simp [Invalidation.covers]
      · have hshelf : (cache.forget (.kind other of)).shelf kind = cache.shelf kind := by
          cases other <;> cases kind <;> first | rfl | exact absurd rfl hkind
        rw [kept?, hshelf]
        simp [Invalidation.covers, hkind, kept?]
  | connection of =>
      have hshelf : (cache.forget (.connection of)).shelf kind =
          (cache.shelf kind).invalidate of := by cases kind <;> rfl
      rw [kept?, hshelf, Shelf.invalidate, herase]
      simp [Invalidation.covers]
  | all => cases kind <;> rfl

/-- To forget loads nothing. -/
lemma loadCount_forget (cache : MetadataCache) (what : Invalidation) (kind : MetadataKind)
    (connection : String) :
    (cache.forget what).loadCount kind connection = cache.loadCount kind connection := by
  rcases what with ⟨other, of⟩ | of | _
  · cases other <;> cases kind <;> rfl
  · cases kind <;> rfl
  · cases kind <;> rfl

/-- What a request does for its kind and connection. It answers what is kept, and asks the source
only when nothing is; then it keeps what was loaded, or answers why the load failed. -/
lemma request_cases (cache : MetadataCache) (source : Source) (kind : MetadataKind)
    (connection : String) :
    (∃ kept, cache.kept? kind connection = some kept ∧
      (cache.request source kind connection).1 = .ok kept ∧
      (cache.request source kind connection).2.kept? kind connection = some kept ∧
      (cache.request source kind connection).2.loadCount kind connection =
        cache.loadCount kind connection) ∨
    (cache.kept? kind connection = none ∧
      (cache.request source kind connection).2.loadCount kind connection =
        cache.loadCount kind connection + 1 ∧
      ((∃ e, source.load kind connection = .error e ∧
          (cache.request source kind connection).1 = .error (.metadata e.message) ∧
          (cache.request source kind connection).2.kept? kind connection = none) ∨
        ∃ value, source.load kind connection = .ok value ∧
          (cache.request source kind connection).1 =
            .ok ⟨value, (cache.shelf kind).loads.length⟩ ∧
          (cache.request source kind connection).2.kept? kind connection =
            some ⟨value, (cache.shelf kind).loads.length⟩)) := by
  obtain ⟨hanswer, hshelf⟩ := shelf_request_self cache source kind connection
  rw [hanswer, kept?, kept?, loadCount, loadCount, hshelf]
  cases hkept : (cache.shelf kind).kept.find? connection with
  | some kept =>
      rw [Shelf.request_of_kept hkept]
      exact .inl ⟨kept, rfl, rfl, hkept, rfl⟩
  | none =>
      refine .inr ⟨rfl, ?_⟩
      cases hload : source.load kind connection with
      | error e =>
          rw [Shelf.request_of_error hkept hload]
          exact ⟨List.count_cons_self .., .inl ⟨e, rfl, rfl, hkept⟩⟩
      | ok value =>
          rw [Shelf.request_of_ok hkept hload]
          refine ⟨List.count_cons_self .., .inr ⟨value, rfl, rfl, ?_⟩⟩
          rw [TextMap.find?_insert, if_pos rfl]

/-- A call that does not concern a kind and a connection changes nothing for them. -/
lemma step_of_not_concerns {call : CacheCall} (h : call.concerns kind connection = false)
    (cache : MetadataCache) :
    (cache.step call).2.kept? kind connection = cache.kept? kind connection ∧
      (cache.step call).2.loadCount kind connection = cache.loadCount kind connection := by
  cases call with
  | request other of source =>
      by_cases hkind : other = kind
      · subst hkind
        have hne : connection ≠ of := by
          rintro rfl
          simp [CacheCall.concerns] at h
        have hshelf := (shelf_request_self cache source other of).2
        simp only [step, kept?, loadCount, hshelf]
        exact Shelf.request_of_ne hne
      · have hshelf : (cache.request source other of).2.shelf kind = cache.shelf kind :=
          shelf_request_of_ne hkind source
        simp only [step, kept?, loadCount, hshelf, and_self]
  | invalidate what =>
      have hcovers : what.covers kind connection = false := h
      refine ⟨?_, loadCount_forget cache what kind connection⟩
      rw [step, kept?_forget, hcovers]
      rfl

/-- It is remembered as one that neither asks for them, nor loads or forgets something of them. -/
lemma entry_of_not_concerns {call : CacheCall} (h : call.concerns kind connection = false)
    (cache : MetadataCache) :
    (cache.step call).1.covers kind connection = false ∧
      (cache.step call).1.loaded? kind connection = none ∧
      (cache.step call).1.asks kind connection = false := by
  cases call with
  | request other of source =>
      have hne : ¬ (other = kind ∧ of = connection) := by simpa [CacheCall.concerns] using h
      exact ⟨rfl, CacheEntry.loaded?_of_ne hne _ _, h⟩
  | invalidate what => exact ⟨h, rfl, rfl⟩

/-! ### The account of a run -/

/-- The cache keeps the loads that stand, and has made those that were due. -/
structure Accounts (history : List CacheEntry) (cache : MetadataCache) : Prop where
  kept : ∀ kind connection, cache.kept? kind connection = latest? kind connection history
  loads : ∀ kind connection, cache.loadCount kind connection = due kind connection history

namespace Accounts

variable {history : List CacheEntry}

/-- A new cache keeps nothing and has loaded nothing. -/
lemma fresh : Accounts [] {} :=
  ⟨fun kind _ => by cases kind <;> rfl, fun kind _ => by cases kind <;> rfl⟩

/-- A request keeps the account of its own kind and connection. -/
lemma request (h : Accounts history cache) (source : Source) :
    let (entry, next) := cache.step (.request kind connection source)
    next.kept? kind connection = latest? kind connection (history ++ [entry]) ∧
      next.loadCount kind connection = due kind connection (history ++ [entry]) := by
  simp only [step, latest?_concat, due_concat, CacheEntry.covers, CacheEntry.asks, ← h.kept,
    ← h.loads]
  rcases request_cases cache source kind connection with
    ⟨kept, hkept, -, hnext, hloads⟩ | ⟨hkept, hloads, hcases⟩
  · simp [hkept, hnext, hloads, CacheEntry.loaded?]
  · rcases hcases with ⟨e, -, hanswer, hnext⟩ | ⟨value, -, hanswer, hnext⟩
    · simp [hkept, hnext, hloads, hanswer, CacheEntry.loaded?]
    · simp [hkept, hnext, hloads, hanswer, CacheEntry.loaded?]

/-- Every call keeps the account. -/
lemma step (h : Accounts history cache) (call : CacheCall) :
    Accounts (history ++ [(cache.step call).1]) (cache.step call).2 := by
  have hboth : ∀ kind connection,
      (cache.step call).2.kept? kind connection =
          latest? kind connection (history ++ [(cache.step call).1]) ∧
        (cache.step call).2.loadCount kind connection =
          due kind connection (history ++ [(cache.step call).1]) := by
    intro kind connection
    cases hconcerns : call.concerns kind connection with
    | false =>
        obtain ⟨hcovers, hloaded, hasks⟩ := entry_of_not_concerns hconcerns cache
        obtain ⟨hkept, hloads⟩ := step_of_not_concerns hconcerns cache
        simp [latest?_concat, due_concat, hcovers, hloaded, hasks, hkept, hloads, h.kept, h.loads]
    | true =>
        cases call with
        | request other of source =>
            obtain ⟨rfl, rfl⟩ : other = kind ∧ of = connection := by
              simpa [CacheCall.concerns] using hconcerns
            exact h.request source
        | invalidate what =>
            have hcovers : what.covers kind connection = true := hconcerns
            simp [MetadataCache.step, latest?_concat, due_concat, CacheEntry.covers,
              CacheEntry.asks, kept?_forget, loadCount_forget, hcovers, h.loads]
  exact ⟨fun kind connection => (hboth kind connection).1,
    fun kind connection => (hboth kind connection).2⟩

end Accounts

/-- The account is kept in every run of a new cache. -/
lemma accounts_run (calls : List CacheCall) :
    Accounts (run {} calls).1 (run {} calls).2 := by
  induction calls using List.reverseRecOn with
  | nil => exact .fresh
  | append_singleton calls call ih =>
      rw [run_concat]
      exact ih.step call

/-! ### Calls for other kinds and connections -/

/-- What a request answers where this value, or none, is kept. -/
def served (source : Source) (kind : MetadataKind) (connection : String) :
    Option kind.Value → Except Error kind.Value
  | some value => .ok value
  | none => (source.load kind connection).mapError fun e => .metadata e.message

/-- The values that a request answers and leaves behind depend on the value that is kept. -/
lemma request_served (cache : MetadataCache) (source : Source) (kind : MetadataKind)
    (connection : String) :
    let value := (cache.kept? kind connection).map Kept.value
    let asked := cache.request source kind connection
    asked.1.map Kept.value = served source kind connection value ∧
      (asked.2.kept? kind connection).map Kept.value =
        (served source kind connection value).toOption ∧
      asked.2.loadCount kind connection =
        cache.loadCount kind connection + if value.isNone then 1 else 0 := by
  rcases request_cases cache source kind connection with
    ⟨kept, hkept, hanswer, hnext, hloads⟩ | ⟨hkept, hloads, hcases⟩
  · simp only [hkept, hanswer, hnext, hloads]
    exact ⟨rfl, rfl, rfl⟩
  · rcases hcases with ⟨e, hload, hanswer, hnext⟩ | ⟨value, hload, hanswer, hnext⟩
    · simp only [hkept, hanswer, hnext, hloads, served, hload, Option.map_none]
      exact ⟨rfl, rfl, rfl⟩
    · simp only [hkept, hanswer, hnext, hloads, served, hload, Option.map_none]
      exact ⟨rfl, rfl, rfl⟩

/-- Two caches keep the same value of a kind for a connection, and have loaded it as often. -/
structure Alike (kind : MetadataKind) (connection : String) (cache cache' : MetadataCache) :
    Prop where
  value : (cache.kept? kind connection).map Kept.value =
    (cache'.kept? kind connection).map Kept.value
  loads : cache.loadCount kind connection = cache'.loadCount kind connection

namespace Alike

variable {cache' : MetadataCache}

/-- A request has the same answer from both. -/
lemma request (h : Alike kind connection cache cache') (source : Source) :
    (cache.request source kind connection).1.map Kept.value =
      (cache'.request source kind connection).1.map Kept.value := by
  rw [(request_served cache source kind connection).1, h.value,
    (request_served cache' source kind connection).1]

/-- A call that concerns the kind and the connection leaves both alike. -/
lemma step (h : Alike kind connection cache cache') {call : CacheCall}
    (hconcerns : call.concerns kind connection = true) :
    Alike kind connection (cache.step call).2 (cache'.step call).2 := by
  cases call with
  | request other of source =>
      obtain ⟨rfl, rfl⟩ : other = kind ∧ of = connection := by
        simpa [CacheCall.concerns] using hconcerns
      obtain ⟨-, hvalue, hloads⟩ := request_served cache source other of
      obtain ⟨-, hvalue', hloads'⟩ := request_served cache' source other of
      exact ⟨by rw [MetadataCache.step, MetadataCache.step, hvalue, hvalue', h.value],
        by rw [MetadataCache.step, MetadataCache.step, hloads, hloads', h.value, h.loads]⟩
  | invalidate what =>
      have hcovers : what.covers kind connection = true := hconcerns
      refine ⟨?_, ?_⟩
      · rw [MetadataCache.step, MetadataCache.step, kept?_forget, kept?_forget, hcovers]
        rfl
      · rw [MetadataCache.step, MetadataCache.step, loadCount_forget, loadCount_forget, h.loads]

/-- Any other call leaves them alike when it is made to one of them only. -/
lemma step_of_not_concerns (h : Alike kind connection cache cache') {call : CacheCall}
    (hconcerns : call.concerns kind connection = false) :
    Alike kind connection cache (cache'.step call).2 := by
  obtain ⟨hkept, hloads⟩ := MetadataCache.step_of_not_concerns hconcerns cache'
  exact ⟨by rw [hkept, h.value], by rw [hloads, h.loads]⟩

end Alike

/-- A run leaves what its calls for the kind and the connection leave by themselves. -/
lemma alike_run (kind : MetadataKind) (connection : String) (calls : List CacheCall) :
    Alike kind connection (run {} (calls.filter (·.concerns kind connection))).2
      (run {} calls).2 := by
  induction calls using List.reverseRecOn with
  | nil => exact ⟨rfl, rfl⟩
  | append_singleton calls call ih =>
      rw [List.filter_append, run_concat]
      cases hconcerns : call.concerns kind connection with
      | true =>
          rw [List.filter_cons_of_pos hconcerns, List.filter_nil, run_concat]
          exact ih.step hconcerns
      | false =>
          rw [List.filter_cons_of_neg (by simp [hconcerns]), List.filter_nil, List.append_nil]
          exact ih.step_of_not_concerns hconcerns

/-- **Metadata is loaded when it is due, and else the latest load is served.** In every run of a new
cache, with requests, invalidations and failing loads in any order, the loads of a kind for a
connection are as many as the requests for them before which no successful load stood that no
later invalidation covered. The next request answers what was loaded latest, if it stands, and else
what is loaded now, or why that fails. Of the run only the calls matter that ask for this kind of
this connection or have it forgotten: without all others there are as many loads, and the same
answer. -/
theorem loadCount_request_run (calls : List CacheCall) (kind : MetadataKind)
    (connection : String) :
    let history := (run {} calls).1
    let cache := (run {} calls).2
    let own := (run {} (calls.filter (·.concerns kind connection))).2
    cache.loadCount kind connection = due kind connection history ∧
      (∀ source : Source, (cache.request source kind connection).1 =
        match latest? kind connection history, source.load kind connection with
        | some kept, _ => .ok kept
        | none, .ok value => .ok ⟨value, (cache.shelf kind).loads.length⟩
        | none, .error e => .error (.metadata e.message)) ∧
      own.loadCount kind connection = cache.loadCount kind connection ∧
      ∀ source : Source, (own.request source kind connection).1.map Kept.value =
        (cache.request source kind connection).1.map Kept.value := by
  intro history cache own
  have haccounts : Accounts history cache := accounts_run calls
  have halike : Alike kind connection own cache := alike_run kind connection calls
  refine ⟨haccounts.loads kind connection, fun source => ?_, halike.loads, halike.request⟩
  rw [← haccounts.kept]
  rcases request_cases cache source kind connection with
    ⟨kept, hkept, hanswer, -⟩ | ⟨hkept, -, ⟨e, hload, hanswer, -⟩ | ⟨value, hload, hanswer, -⟩⟩
  · rw [hanswer, hkept]
  · rw [hanswer, hkept, hload]
  · rw [hanswer, hkept, hload]

/-- A load that failed is due again, and what is forgotten of another kind is not due here. -/
example :
    let source : Source := .serving default ["COUNT"] []
    let calls : List CacheCall :=
      [.request .functions "a" (source.without [.functions]), .request .functions "a" source,
        .invalidate (.kind .keywords "a"), .request .functions "a" source,
        .invalidate .all, .request .functions "a" source]
    due .functions "a" (run {} calls).1 = 3 := by
  decide +kernel

end MetadataCache

end SqlCompletion
