/-!
The ASCII rules of the library: which characters are blank, and comparison that ignores the case
of ASCII letters and of no others.

* `isBlank`: space, tab, newline, form feed and carriage return;
* `upperAscii`, `equalIgnoringCase`: case folding of ASCII letters;
* `contains`: whether one text occurs in another;
* `frontRun`: the longest run of a class of characters at the front of a text.
-/

namespace SqlCompletion.Text

/-- Space, tab, newline, form feed or carriage return. -/
def isBlank (c : Char) : Bool :=
  c = ' ' || c = '\t' || c = '\n' || c = '\x0c' || c = '\r'

/-- A word with its ASCII letters in upper case. -/
def upperAscii (word : List Char) : String :=
  String.ofList (word.map Char.toUpper)

/-- Two names are the same but for the case of their ASCII letters. -/
def equalIgnoringCase (a b : String) : Bool :=
  a.toList.map Char.toLower == b.toList.map Char.toLower

/-- The text `part` occurs somewhere in the text. -/
def contains (part : List Char) : List Char → Bool
  | [] => part.isEmpty
  | c :: cs => part.isPrefixOf (c :: cs) || contains part cs

/-- The longest run of characters of a class at the front of a text, and the rest. -/
def frontRun (p : Char → Bool) (cs : List Char) : List Char × List Char :=
  (cs.takeWhile p, cs.dropWhile p)

theorem frontRun_append (p : Char → Bool) (cs : List Char) :
    (frontRun p cs).1 ++ (frontRun p cs).2 = cs :=
  List.takeWhile_append_dropWhile

end SqlCompletion.Text
