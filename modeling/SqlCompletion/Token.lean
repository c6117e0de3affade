import SqlCompletion.Keyword

/-!
Tokens: the pieces a query is divided into, each with its place in the text.

* `TokenKind`: what a token is, blanks and comments included, so that tokens can cover a text;
* `Token`: a kind, a text and a span of byte offsets.
-/

namespace SqlCompletion

/-- What a token is. -/
inductive TokenKind
  /-- A word that is a keyword. -/
  | keyword (k : Keyword)
  /-- A bare word that is no keyword, or a name between backticks. -/
  | identifier
  | dot
  | comma
  /-- A run of operator characters. -/
  | operator
  /-- A literal between single or double quotes. -/
  | string
  /-- Digits with dots among them. -/
  | number
  | parenOpen
  | parenClose
  /-- A comment to the end of the line, or between block marks. -/
  | comment
  | whitespace
  /-- A single character of no other kind. -/
  | unknown
  deriving DecidableEq, Repr

namespace TokenKind

/-- The keyword, if the token is one. -/
def keyword? : TokenKind → Option Keyword
  | keyword k => some k
  | _ => none

/-- Keywords and identifiers, which both read as words. -/
def isWord : TokenKind → Bool
  | keyword _ | identifier => true
  | _ => false

/-- Blanks and comments, which every reader passes over. -/
def isTrivia : TokenKind → Bool
  | whitespace | comment => true
  | _ => false

end TokenKind

/-- A piece of a query. Its value is the text of its span, save for a name between backticks, whose
value is the name itself. -/
structure Token where
  kind : TokenKind
  value : String
  /-- The byte offset at which the token begins. -/
  start : Nat
  /-- The byte offset just past the token. -/
  stop : Nat
  deriving DecidableEq, Repr

namespace Token

/-- The number of bytes the token spans. -/
def length (t : Token) : Nat :=
  t.stop - t.start

/-- The token spans nothing. -/
def isEmpty (t : Token) : Bool :=
  t.length == 0

/-- The name, if the token is an identifier. -/
def identifier? (t : Token) : Option String :=
  if t.kind = .identifier then some t.value else none

/-- The text, if the token is a word. -/
def word? (t : Token) : Option String :=
  if t.kind.isWord then some t.value else none

/-- The token is a blank or a comment. -/
def isTrivia (t : Token) : Bool :=
  t.kind.isTrivia

/-- The token is the given keyword. -/
def isKeyword (t : Token) (k : Keyword) : Bool :=
  t.kind == .keyword k

/-- The cursor stands at the token's start or inside it; just past its end is outside. -/
def contains (t : Token) (cursor : Nat) : Bool :=
  t.start ≤ cursor && cursor < t.stop

end Token

end SqlCompletion
