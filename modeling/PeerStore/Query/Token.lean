import PeerStore.Text.Split

/-!
# Tokens of query text

Query text is a sequence of tokens between single spaces. A literal is written as one token:
`escape` encodes spaces and carets, and the empty literal as a word of its own, `unescape` reads
a token back. `Tokens` is a reader over the tokens of a text that never reads past the end.
-/

set_option autoImplicit false

namespace PeerStore.Query

/-! ## Cutting text into tokens -/

/-- Drops the spaces at both ends. -/
def trimSpaces (cs : List Char) : List Char :=
  ((cs.dropWhile (· == ' ')).reverse.dropWhile (· == ' ')).reverse

/-- The tokens of a text. Spaces at the ends do not count; each further space inside a run
yields an empty token. -/
def tokenize (text : String) : List String :=
  match trimSpaces text.toList with
  | [] => []
  | cs => (split ' ' cs).map String.ofList

/-! ## Literals as tokens -/

/-- How the empty literal is written. -/
def emptyLiteral : String := "^EMPTY_STRING"

/-- How a character of a literal is written. -/
def escapeChar (c : Char) : List Char :=
  if c = '^' then ['(', '^', ')'] else if c = ' ' then ['^', '^'] else [c]

/-- Writes a literal as one token. -/
def escape (literal : String) : String :=
  if literal.toList.isEmpty then emptyLiteral
  else String.ofList (literal.toList.flatMap escapeChar)

/-- Turns every two carets, from the left, into a space. -/
def unescapeSpaces : List Char → List Char
  | '^' :: '^' :: cs => ' ' :: unescapeSpaces cs
  | c :: cs => c :: unescapeSpaces cs
  | [] => []

/-- Turns every caret in parentheses into a caret. -/
def unescapeCarets : List Char → List Char
  | '(' :: '^' :: ')' :: cs => '^' :: unescapeCarets cs
  | c :: cs => c :: unescapeCarets cs
  | [] => []

/-- Reads a literal from its token. Spaces are decoded before carets. -/
def unescape (token : String) : String :=
  if token = emptyLiteral then ""
  else String.ofList (unescapeCarets (unescapeSpaces token.toList))

/-! ## Reading tokens -/

/-- The tokens that are left, and how many have been read. -/
structure Tokens where
  read : Nat
  rest : List String
  deriving DecidableEq, Repr

namespace Tokens

/-- All tokens of a text. -/
def ofText (text : String) : Tokens := ⟨0, tokenize text⟩

/-- Whether no token is left. -/
def isDone (ts : Tokens) : Bool := ts.rest.isEmpty

/-- The next token, which stays. -/
def peek? (ts : Tokens) : Option String := ts.rest.head?

/-- Takes exactly `n` tokens, if that many are left. -/
def take? (ts : Tokens) (n : Nat) : Option (List String × Tokens) :=
  if n ≤ ts.rest.length then some (ts.rest.take n, ⟨ts.read + n, ts.rest.drop n⟩) else none

/-- Takes one token. -/
def next? (ts : Tokens) : Option (String × Tokens) :=
  match ts.rest with
  | [] => none
  | t :: rest => some (t, ⟨ts.read + 1, rest⟩)

/-- Takes the tokens before the first `marker`, and the marker, if there is one. -/
def takeUntil? (ts : Tokens) (marker : String) : Option (List String × Tokens) :=
  if ts.rest.contains marker then
    let items := ts.rest.takeWhile (· != marker)
    some (items, ⟨ts.read + items.length + 1, ts.rest.drop (items.length + 1)⟩)
  else none

end Tokens

end PeerStore.Query
