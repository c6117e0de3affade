import SqlCompletion.TableReference.Basic
import SqlCompletion.Text.Alphabetic
import SqlCompletion.Text.LowerCase

/-!
Short aliases for tables.

The names tried for a table are its first letter, its first two characters, and its first letter
followed by 1, 2, 3 and so on, all in small letters. The first that is not taken is used. The numbers
are counted in 32 bits, so they come to an end.

* `aliasStem`, `aliasPair`, `numberedAlias`: the names tried;
* `Overflow`: what becomes of the counter after its greatest value;
* `freeNumber?`, `freeAlias?`: the alias of one table, if one is found;
* `Insertion`, `insertionsFor?`: the aliases of all references that have none.
-/

namespace SqlCompletion

open Text

/-- The first letter of a table's name, or `t` when it has none. -/
def aliasStem (table : String) : String :=
  match table.toList.find? isAlphabetic with
  | some c => String.ofList (lowerChar c)
  | none => "t"

/-- The first two characters of a table's name. -/
def aliasPair (table : String) : String :=
  String.ofList ((table.toList.take 2).flatMap lowerChar)

/-- A stem with a number. -/
def numberedAlias (stem : String) (n : Int32) : String :=
  stem ++ n.toInt.repr

/-- What becomes of a counter after its greatest value: as the program is built, it is stopped and
gives no answer, or it goes on from its least value. -/
inductive Overflow
  | stops
  | wraps
  deriving DecidableEq, Repr

/-- How many values a counter of 32 bits has that begins at 1: those up to the greatest one, or all
that there are. After these the same values come again, and the count has no end. -/
def Overflow.values : Overflow → Nat
  | stops => Int32.size / 2 - 1
  | wraps => Int32.size

/-- The first number from `n` on whose alias is not taken, among as many as are left. -/
def freeNumberFrom? (stem : String) (taken : List String) : Nat → Int32 → Option Int32
  | 0, _ => none
  | left + 1, n =>
    if taken.contains (numberedAlias stem n) then freeNumberFrom? stem taken left (n + 1)
    else some n

/-- The first number from 1 on whose alias is not taken, if the counter comes to one. -/
def freeNumber? (overflow : Overflow) (stem : String) (taken : List String) : Option Int32 :=
  freeNumberFrom? stem taken overflow.values 1

/-- The alias of a table among names that are taken, if one is found. A table without a name always
gets `t`. -/
def freeAlias? (overflow : Overflow) (table : String) (taken : List String) : Option String :=
  if table.isEmpty then some "t"
  else if !taken.contains (aliasStem table) then some (aliasStem table)
  else if !taken.contains (aliasPair table) then some (aliasPair table)
  else (freeNumber? overflow (aliasStem table) taken).map (numberedAlias (aliasStem table))

/-- An alias to be written at a byte offset of a query. -/
structure Insertion where
  position : Nat
  table : String
  aliasName : String
  deriving DecidableEq, Repr

/-- Aliases for the references that have a place for one, in order, and the names taken in the
end. Each alias is taken from then on. There are none where one of them is not found. -/
def fillAliases? (overflow : Overflow) :
    List TableReference → List String → Option (List Insertion × List String)
  | [], taken => some ([], taken)
  | r :: rest, taken =>
    match r.aliasPlace with
    | none => fillAliases? overflow rest taken
    | some position =>
      match freeAlias? overflow r.table taken with
      | none => none
      | some aliasName =>
        (fillAliases? overflow rest (lower aliasName :: taken)).map fun (others, final) =>
          (⟨position, r.table, aliasName⟩ :: others, final)

/-- The aliases written in references, in small letters. -/
def writtenAliases (refs : List TableReference) : List String :=
  refs.filterMap fun r => r.aliasName.map lower

/-- Aliases for the references that have none, if they are found. The aliases written anywhere among
the references are taken from the start. -/
def insertionsFor? (overflow : Overflow) (refs : List TableReference) (taken : List String) :
    Option (List Insertion × List String) :=
  fillAliases? overflow refs (writtenAliases refs ++ taken)

end SqlCompletion
