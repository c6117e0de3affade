import SqlCompletion.Error
import SqlCompletion.Toml.Reader

/-!
The settings of the command line program. Each is taken from the environment, else from a settings
file, else it has a default.

* `Settings`: the settings with their defaults;
* `Settings.load`: the settings of an environment and a file; any fault in either refuses them
  all, even one in a setting that the other provides.
-/

namespace SqlCompletion

/-- The settings of the command line program. -/
structure Settings where
  /-- How long a shown suggestion may be accepted, in milliseconds. -/
  matchWindow : UInt64 := 1000
  /-- The directory of the usage records. -/
  usageDirectory : String := ".qsense/usage"
  /-- How long metadata is kept, in seconds. -/
  metadataLifetime : UInt64 := 300
  /-- For how many connections metadata is kept. -/
  metadataCapacity : UInt64 := 64
  deriving DecidableEq, Repr

namespace Settings

/-- The name of the settings file. -/
def fileName : String := "qsense.toml"

/-- The variables of the environment that settings are taken from. -/
def variableNames : List String :=
  ["QSENSE_MATCH_WINDOW_MS", "QSENSE_USAGE_DIR", "QSENSE_METADATA_TTL_SECS",
    "QSENSE_METADATA_CAPACITY"]

/-- The greatest lifetime of metadata: a thousand years of 365 days. -/
def lifetimeLimit : Nat := 1000 * 365 * 24 * 3600

/-- The blanks that may surround a number in the environment. -/
def isSurrounding (c : Char) : Bool :=
  let n := c.toNat
  (9 ≤ n && n ≤ 13) || n = 0x20 || n = 0x85 || n = 0xA0 || n = 0x1680 ||
    (0x2000 ≤ n && n ≤ 0x200A) || n = 0x2028 || n = 0x2029 || n = 0x202F || n = 0x205F ||
    n = 0x3000

/-- A text without the blanks around it. -/
def trimmed (cs : List Char) : List Char :=
  ((cs.dropWhile isSurrounding).reverse.dropWhile isSurrounding).reverse

/-- A number of 64 bits in decimal digits, with or without a plus sign. -/
def numberOfText? (text : String) : Option UInt64 :=
  let digits := match trimmed text.toList with
    | '+' :: digits => digits
    | digits => digits
  if digits.isEmpty || !digits.all Char.isDigit then none
  else
    let n := Nat.ofDigitChars 10 digits 0
    if n < UInt64.size then some (UInt64.ofNat n) else none

/-- A setting that is a number, as the environment gives it: absent, present, or a fault. An empty
text counts as absent. -/
def numberOfEnvironment : Option String → Except Unit (Option UInt64)
  | none => .ok none
  | some text =>
    match numberOfText? text with
    | some n => .ok (some n)
    | none => if text.isEmpty then .ok none else .error ()

/-- A setting that is a number, as the file gives it. -/
def numberOfFile (key : String) (entries : Toml.Entries) : Except Unit (Option UInt64) :=
  match entries.lookup key with
  | none => .ok none
  | some (.value (.integer i)) =>
    if 0 ≤ i && i < UInt64.size then .ok (some (UInt64.ofNat i.toNat)) else .error ()
  | some _ => .error ()

/-- A setting that is a text, as the file gives it. -/
def textOfFile (key : String) (entries : Toml.Entries) : Except Unit (Option String) :=
  match entries.lookup key with
  | none => .ok none
  | some (.value (.text s)) => .ok (some s)
  | some _ => .error ()

/-- The entries of the settings file; a missing file has none. -/
def entriesOfFile : Except FileFault String → Except Unit Toml.Entries
  | .error .notFound => .ok []
  | .error _ => .error ()
  | .ok text =>
    match Toml.parse? text with
    | some entries => .ok entries
    | none => .error ()

/-- The settings that an environment and the reading of the settings file give. -/
def load (environment : String → Option String) (file : Except FileFault String) :
    Except Unit Settings := do
  let window ← numberOfEnvironment (environment "QSENSE_MATCH_WINDOW_MS")
  let lifetime ← numberOfEnvironment (environment "QSENSE_METADATA_TTL_SECS")
  let capacity ← numberOfEnvironment (environment "QSENSE_METADATA_CAPACITY")
  let directory := environment "QSENSE_USAGE_DIR"
  let entries ← entriesOfFile file
  let windowOfFile ← numberOfFile "match_window_ms" entries
  let directoryOfFile ← textOfFile "usage_dir" entries
  let lifetimeOfFile ← numberOfFile "metadata_ttl_secs" entries
  let capacityOfFile ← numberOfFile "metadata_capacity" entries
  let defaults : Settings := {}
  let settings : Settings :=
    { matchWindow := (window.or windowOfFile).getD defaults.matchWindow
      usageDirectory := (directory.or directoryOfFile).getD defaults.usageDirectory
      metadataLifetime := (lifetime.or lifetimeOfFile).getD defaults.metadataLifetime
      metadataCapacity := (capacity.or capacityOfFile).getD defaults.metadataCapacity }
  if lifetimeLimit < settings.metadataLifetime.toNat then throw ()
  else pure settings

end Settings

end SqlCompletion
