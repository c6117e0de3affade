import SqlCompletion.TableReference.Extraction
import SqlCompletion.Token.Lexer

/-!
What the place of the cursor means for completion: the word being typed, the names before a dot,
the clause and the tables in scope. Resolving never fails.

* `Context`: all that is known about the place;
* `Focus`: the token a cursor belongs to, between the tokens before and after it;
* `Focus.ofCursor?`: how that token is chosen;
* `Context.resolve`: the context of a cursor in a query.
-/

namespace SqlCompletion

open Text

/-- What is known about the place of a cursor in a query. -/
structure Context where
  clause : Clause := .UNKNOWN
  /-- The tables after `FROM` and `JOIN`, wherever they stand in the query. -/
  fromTables : List TableReference := []
  /-- The table the statement updates or inserts into. -/
  targetTable : Option TableReference := none
  /-- The word up to the cursor, empty when the cursor is not on a word. -/
  currentWord : String := ""
  /-- The byte offset at which the current word begins. -/
  wordStart : Nat := 0
  isAfterDot : Bool := false
  /-- The name before the dot, or the first of two dotted names. -/
  databasePart : Option String := none
  /-- The second of two dotted names. -/
  tablePart : Option String := none
  /-- The database that the user works in. -/
  selectedDatabase : Option String := none
  deriving DecidableEq, Repr

namespace Context

/-- The tables whose columns are in scope: those after `FROM` and `JOIN`, else the target. -/
def visibleTables (context : Context) : List TableReference :=
  if context.fromTables.isEmpty then context.targetTable.toList else context.fromTables

end Context

/-! ### The token of a cursor -/

/-- A token of a query, with the tokens before it from the last to the first, and those after it
in order. -/
structure Focus where
  before : List Token
  token : Token
  after : List Token

namespace Focus

/-- The token may go on with what is typed right after it. -/
def continues (t : Token) : Bool :=
  t.kind.isWord || t.kind = .dot

/-- The token a cursor belongs to: a word or a dot that ends at the cursor, else the token around
the cursor, else the last one before it. -/
def ofCursor? (tokens : List Token) (cursor : Nat) : Option Focus :=
  let ended := tokens.takeWhile (·.stop ≤ cursor)
  let remaining := tokens.dropWhile (·.stop ≤ cursor)
  match ended.reverse, remaining with
  | [], [] => none
  | [], t :: after => some ⟨[], t, after⟩
  | t :: before, [] => some ⟨before, t, []⟩
  | t :: before, next :: after =>
    if t.stop = cursor && continues t then some ⟨before, t, next :: after⟩
    else some ⟨t :: before, next, after⟩

/-- The part of a word up to the cursor. A name between backticks loses the opening one. -/
def wordBefore (sql : List Char) (token : Token) (cursor : Nat) : String :=
  if token.stop ≤ cursor then token.value
  else
    match (slice? sql token.start cursor).getD [] with
    | '\x60' :: name => String.ofList name
    | raw => String.ofList raw

/-- The tokens before the dot that the focus stands on or right after. -/
def beforeDot? (focus : Focus) : Option (List Token) :=
  if focus.token.kind = .dot then some focus.before
  else
    match focus.before with
    | t :: earlier => if focus.token.kind.isWord && t.kind = .dot then some earlier else none
    | [] => none

/-- The names before a dot, from the tokens before it, the last first: one name, or two with a dot
between them. -/
def dottedNames : List Token → Option String × Option String
  | near :: dot :: far :: _ =>
    match near.word?, if dot.kind = .dot then far.word? else none with
    | some table, some database => (some database, some table)
    | some name, none => (some name, none)
    | none, _ => (none, none)
  | near :: _ => (near.word?, none)
  | [] => (none, none)

end Focus

namespace Context

/-- The context of a cursor that belongs to a token. -/
def ofFocus (sql : List Char) (cursor : Nat) (focus : Focus) (base : Context) : Context :=
  let isWord := focus.token.kind.isWord
  let names := match focus.beforeDot? with
    | some before => Focus.dottedNames before
    | none => (none, none)
  { base with
    clause := Clause.nearest (focus.token :: focus.before)
    targetTable := TableReference.targetBefore? (focus.token :: focus.before) focus.after
    currentWord := if isWord then Focus.wordBefore sql focus.token cursor else ""
    wordStart := if isWord then focus.token.start else cursor
    isAfterDot := focus.beforeDot?.isSome
    databasePart := names.1
    tablePart := names.2 }

/-- The context of a cursor in a query, by byte offset; a cursor past the end stands at the end. -/
def resolve (sql : String) (cursor : Nat) (selectedDatabase : Option String) : Context :=
  let cs := sql.toList
  let cursor := min cursor (byteLength cs)
  let tokens := tokenize sql
  let base : Context :=
    { fromTables := TableReference.extract tokens
      wordStart := cursor
      selectedDatabase := selectedDatabase }
  match Focus.ofCursor? tokens cursor with
  | none => base
  | some focus => ofFocus cs cursor focus base

end Context

end SqlCompletion
