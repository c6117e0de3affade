import SqlCompletion.Suggestion.Basic
import SqlCompletion.TextMap

/-!
How often suggestions have been accepted.

* `UsageEntry`, `UsageRecord`: the uses of one key, and of all keys of a connection;
* `UsageRecord.count`, `UsageRecord.record`: reading and adding to the counts.
-/

namespace SqlCompletion

/-- The uses of one key. -/
structure UsageEntry where
  count : UInt64
  /-- The time of the latest use. -/
  lastUsed : Int64
  category : Category
  deriving DecidableEq, Repr

/-- The uses of all keys of a connection. -/
structure UsageRecord where
  version : UInt32
  lastUpdated : Int64
  items : TextMap UsageEntry
  deriving DecidableEq

namespace UsageRecord

/-- The version of the records that are written; those of another version are discarded. -/
def currentVersion : UInt32 := 1

/-- A record without uses. -/
def empty (now : Int64) : UsageRecord :=
  ⟨currentVersion, now, .empty⟩

/-- How often a key has been used. -/
def count (r : UsageRecord) (key : String) : UInt64 :=
  ((r.items.find? key).map UsageEntry.count).getD 0

/-- The uses of a key after one more. A key keeps the category of its first use. -/
def nextEntry (r : UsageRecord) (key : String) (category : Category) (now : Int64) : UsageEntry :=
  ⟨r.count key + 1, now, ((r.items.find? key).map UsageEntry.category).getD category⟩

/-- The record after one more use of a key. -/
def record (r : UsageRecord) (key : String) (category : Category) (now : Int64) : UsageRecord :=
  { r with lastUpdated := now, items := r.items.insert key (r.nextEntry key category now) }

end UsageRecord

end SqlCompletion
