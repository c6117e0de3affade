/-!
TOML documents as trees, and the statements that build them. A statement that defines anything a
second time is refused.

* `Value`: a value, of which only texts and integers are told apart from the others;
* `Item`, `Entries`: what a key stands for, and the keys of a table;
* `assign?`: a line `key = value`;
* `openTable?`, `openElement?`: the headers `[key]` and `[[key]]`.
-/

namespace SqlCompletion.Toml

/-- A value. Numbers with a fraction, truth values, times, arrays and inline tables are all
`other`. -/
inductive Value
  | text (s : String)
  | integer (i : Int)
  | other
  deriving DecidableEq, Repr

/-- How a table came to be: as a part of the key of a header, as a part of a dotted key, or by a
header of its own. -/
inductive Origin
  | implied
  | dotted
  | header
  deriving DecidableEq, Repr

/-- What a key stands for. Of an array of tables the latest element comes first. -/
inductive Item
  | value (v : Value)
  | table (origin : Origin) (entries : List (String × Item))
  | tables (elements : List (List (String × Item)))

/-- The keys of a table, in the order of their definition. -/
abbrev Entries := List (String × Item)

/-- The entries with another item for a key that is there. -/
def replace (key : String) (item : Item) (entries : Entries) : Entries :=
  entries.map fun e => if e.1 == key then (key, item) else e

/-- The entries with a new key; none when the key is there. -/
def define? (key : String) (item : Item) (entries : Entries) : Option Entries :=
  match entries.lookup key with
  | none => some (entries ++ [(key, item)])
  | some _ => none

/-- Changes the table that the parts of a header's key lead to. A missing table is implied, and of
an array the latest element is meant. -/
def within? (act : Entries → Option Entries) : List String → Entries → Option Entries
  | [], entries => act entries
  | key :: path, entries =>
    match entries.lookup key with
    | none => do define? key (.table .implied (← within? act path [])) entries
    | some (.table origin inner) => do
      some (replace key (.table origin (← within? act path inner)) entries)
    | some (.tables (latest :: earlier)) => do
      some (replace key (.tables ((← within? act path latest) :: earlier)) entries)
    | some _ => none

/-- A part of a dotted key may lead into a table: never when it has a header of its own, and to
define the last part only when it came from a dotted key. -/
def Origin.admits (origin : Origin) (definesLast : Bool) : Bool :=
  match origin with
  | header => false
  | implied => !definesLast
  | dotted => true

/-- Assigns a value to a key with the given first and further parts. The parts before the last
lead through tables, which come to be when they are missing. The latest element of an array of
tables can be passed through but not added to. -/
def assign? (v : Value) (key : String) : List String → Entries → Option Entries
  | [], entries => define? key (.value v) entries
  | next :: path, entries =>
    match entries.lookup key with
    | none => do define? key (.table .dotted (← assign? v next path [])) entries
    | some (.table origin inner) => do
      if origin.admits path.isEmpty then
        some (replace key (.table origin (← assign? v next path inner)) entries)
      else none
    | some (.tables (latest :: earlier)) => do
      if path.isEmpty then none
      else some (replace key (.tables ((← assign? v next path latest) :: earlier)) entries)
    | some _ => none

/-- Opens the table of a header: a new one, or one that was only implied before. -/
def openTable? (key : String) (entries : Entries) : Option Entries :=
  match entries.lookup key with
  | none => define? key (.table .header []) entries
  | some (.table .implied inner) => some (replace key (.table .header inner) entries)
  | some _ => none

/-- Opens another element of an array of tables. -/
def openElement? (key : String) (entries : Entries) : Option Entries :=
  match entries.lookup key with
  | none => define? key (.tables [[]]) entries
  | some (.tables elements) => some (replace key (.tables ([] :: elements)) entries)
  | some _ => none

end SqlCompletion.Toml
