import SqlCompletion.Metadata.Source
import SqlCompletion.TextMap

/-!
Metadata that is loaded once and kept until it is invalidated.

Schemas, functions and keywords are kept apart, each by connection. A load that fails is not kept,
so the next request loads again.

* `Shelf`: what is kept of one kind, with a record of the loads;
* `Shelf.request`, `Shelf.invalidate`: one kind;
* `MetadataCache`: all three kinds.
-/

namespace SqlCompletion

/-- A kept value, with the number of loads of its kind before its own, which tells it from every
other. -/
structure Kept (α : Type) where
  value : α
  serial : Nat
  deriving DecidableEq, Repr

/-- What is kept of one kind of metadata. -/
structure Shelf (α : Type) where
  kept : TextMap (Kept α) := .empty
  /-- The connections for which a load was made, the latest first. -/
  loads : List String := []
  deriving Inhabited

namespace Shelf

variable {α : Type}

/-- The kept value of a connection, which is loaded when none is kept. -/
def request (load : String → Except Error α) (connection : String) (shelf : Shelf α) :
    Except Error (Kept α) × Shelf α :=
  match shelf.kept.find? connection with
  | some kept => (.ok kept, shelf)
  | none =>
    let loads := connection :: shelf.loads
    match load connection with
    | .error e => (.error (.metadata e.message), { shelf with loads })
    | .ok value =>
      let kept := ⟨value, shelf.loads.length⟩
      (.ok kept, { kept := shelf.kept.insert connection kept, loads })

/-- Forgets what is kept for a connection. -/
def invalidate (connection : String) (shelf : Shelf α) : Shelf α :=
  { shelf with kept := shelf.kept.erase connection }

/-- Forgets what is kept for all connections. -/
def invalidateAll (shelf : Shelf α) : Shelf α :=
  { shelf with kept := .empty }

end Shelf

/-- What is kept of all kinds of metadata. -/
structure MetadataCache where
  schemas : Shelf Schema := {}
  functions : Shelf (List String) := {}
  keywords : Shelf (List String) := {}
  deriving Inhabited

namespace MetadataCache

/-- The schema of a connection. -/
def requestSchema (source : Source) (connection : String) (cache : MetadataCache) :
    Except Error (Kept Schema) × MetadataCache :=
  let (answer, schemas) := cache.schemas.request source.schema connection
  (answer, { cache with schemas })

/-- The functions of a connection. -/
def requestFunctions (source : Source) (connection : String) (cache : MetadataCache) :
    Except Error (Kept (List String)) × MetadataCache :=
  let (answer, functions) := cache.functions.request source.functions connection
  (answer, { cache with functions })

/-- The keywords of a connection. -/
def requestKeywords (source : Source) (connection : String) (cache : MetadataCache) :
    Except Error (Kept (List String)) × MetadataCache :=
  let (answer, keywords) := cache.keywords.request source.keywords connection
  (answer, { cache with keywords })

/-- Forgets one kind of metadata of a connection. -/
def invalidate (kind : MetadataKind) (connection : String) (cache : MetadataCache) :
    MetadataCache :=
  match kind with
  | .schema => { cache with schemas := cache.schemas.invalidate connection }
  | .functions => { cache with functions := cache.functions.invalidate connection }
  | .keywords => { cache with keywords := cache.keywords.invalidate connection }

/-- Forgets all metadata of a connection. -/
def invalidateConnection (connection : String) (cache : MetadataCache) : MetadataCache :=
  MetadataKind.all.foldl (fun cache kind => cache.invalidate kind connection) cache

/-- Forgets all metadata. -/
def invalidateAll (cache : MetadataCache) : MetadataCache where
  schemas := cache.schemas.invalidateAll
  functions := cache.functions.invalidateAll
  keywords := cache.keywords.invalidateAll

/-- How many loads were made of each kind. -/
def loadCounts (cache : MetadataCache) : List Nat :=
  [cache.schemas.loads.length, cache.functions.loads.length, cache.keywords.loads.length]

end MetadataCache

end SqlCompletion
