import PeerStore.Json.Basic
import PeerStore.Json.Number
import PeerStore.Text.Utf8

/-!
# Reading JSON

A document is read in two passes over its characters and tokens, each a fold of one step. The
lexer (`lex?`) cuts the characters into tokens; the reader (`build?`) keeps the open containers
on a stack. `Json.read?` is the whole: at most 127 open containers, the last of several members
of one name counts, and nothing but white space around the value.
-/

set_option autoImplicit false

namespace PeerStore.Json

/-! ## Tokens -/

/-- A token: a punctuation mark, or a value that is not a container. -/
inductive Token where
  | openList
  | closeList
  | openRecord
  | closeRecord
  | colon
  | comma
  | value (v : Json)

/-- Where the lexer stands. The characters of an unfinished token are in reverse order. -/
inductive Lexing where
  /-- Between tokens. -/
  | between
  /-- In a number or a word. -/
  | atom (cs : List Char)
  /-- In a string. -/
  | text (cs : List Char)
  /-- After a backslash. -/
  | escape (cs : List Char)
  /-- In the hexadecimal digits of an escape, `left` of which are missing; `high` is the high
  surrogate that has to be completed. -/
  | hex (cs : List Char) (high : Option Nat) (left : Nat) (code : Nat)
  /-- After a high surrogate, before the backslash of the low one. -/
  | lowSlash (cs : List Char) (high : Nat)
  /-- After a high surrogate, before the `u` of the low one. -/
  | lowMark (cs : List Char) (high : Nat)

/-- The value of a word or a number. -/
def atom? (cs : List Char) : Option Json :=
  match String.ofList cs with
  | "null" => some .null
  | "true" => some (.bool true)
  | "false" => some (.bool false)
  | _ => (number? cs).map .num

/-- The character that an escape letter stands for. -/
def escaped? : Char → Option Char
  | '"' => some '"'
  | '\\' => some '\\'
  | '/' => some '/'
  | 'b' => some (Char.ofNat 8)
  | 'f' => some (Char.ofNat 12)
  | 'n' => some '\n'
  | 'r' => some '\r'
  | 't' => some '\t'
  | _ => none

/-- The value of a hexadecimal digit. -/
def hexDigit? (c : Char) : Option Nat :=
  if '0' ≤ c && c ≤ '9' then some (c.toNat - '0'.toNat)
  else if 'a' ≤ c && c ≤ 'f' then some (c.toNat - 'a'.toNat + 10)
  else if 'A' ≤ c && c ≤ 'F' then some (c.toNat - 'A'.toNat + 10)
  else none

/-- What the four digits of an escape do: a high surrogate waits for a low one, and neither
stands alone. -/
def unit? (cs : List Char) (high : Option Nat) (code : Nat) : Option Lexing :=
  match high with
  | some h =>
      if 0xDC00 ≤ code && code ≤ 0xDFFF then
        some (.text (Char.ofNat (0x10000 + (h - 0xD800) * 0x400 + (code - 0xDC00)) :: cs))
      else none
  | none =>
      if 0xD800 ≤ code && code ≤ 0xDBFF then some (.lowSlash cs code)
      else if 0xDC00 ≤ code && code ≤ 0xDFFF then none
      else some (.text (Char.ofNat code :: cs))

/-- A character between tokens; `seen` are the tokens so far, in reverse. -/
def between? (seen : List Token) (c : Char) : Lexing × List Token :=
  match c with
  | ' ' | '\t' | '\n' | '\r' => (.between, seen)
  | '[' => (.between, .openList :: seen)
  | ']' => (.between, .closeList :: seen)
  | '{' => (.between, .openRecord :: seen)
  | '}' => (.between, .closeRecord :: seen)
  | ':' => (.between, .colon :: seen)
  | ',' => (.between, .comma :: seen)
  | '"' => (.text [], seen)
  | c => (.atom [c], seen)

/-- Whether a character ends a number or a word. -/
def endsAtom (c : Char) : Bool :=
  c == ' ' || c == '\t' || c == '\n' || c == '\r' || c == '[' || c == ']' || c == '{' ||
    c == '}' || c == ':' || c == ',' || c == '"'

/-- One step of the lexer. -/
def lexStep? : Lexing × List Token → Char → Option (Lexing × List Token)
  | (.between, seen), c => some (between? seen c)
  | (.atom cs, seen), c =>
      if endsAtom c then (atom? cs.reverse).map fun v => between? (.value v :: seen) c
      else some (.atom (c :: cs), seen)
  | (.text cs, seen), c =>
      if c = '"' then some (.between, .value (.str (String.ofList cs.reverse)) :: seen)
      else if c = '\\' then some (.escape cs, seen)
      else if c.toNat < 0x20 then none
      else some (.text (c :: cs), seen)
  | (.escape cs, seen), c =>
      if c = 'u' then some (.hex cs none 4 0, seen)
      else (escaped? c).map fun e => (.text (e :: cs), seen)
  | (.hex cs high left code, seen), c =>
      match hexDigit? c with
      | none => none
      | some d =>
          if left = 1 then (unit? cs high (code * 16 + d)).map fun l => (l, seen)
          else some (.hex cs high (left - 1) (code * 16 + d), seen)
  | (.lowSlash cs high, seen), c => if c = '\\' then some (.lowMark cs high, seen) else none
  | (.lowMark cs high, seen), c => if c = 'u' then some (.hex cs (some high) 4 0, seen) else none

/-- The tokens of a text. -/
def lex? (cs : List Char) : Option (List Token) :=
  match cs.foldlM lexStep? (.between, []) with
  | some (.between, seen) => some seen.reverse
  | some (.atom a, seen) => (atom? a.reverse).map fun v => (.value v :: seen).reverse
  | _ => none

/-! ## Values -/

/-- An open container: the items of a list in reverse, or the members of a record and the name
whose value comes next. -/
inductive Frame where
  | list (items : List Json)
  | record (members : List (String × Json)) (name : String)

/-- What may come next. -/
inductive Want where
  /-- A value. -/
  | value
  /-- A value, or the end of the list just opened. -/
  | firstItem
  /-- A member name, or the end of the record just opened. -/
  | firstName
  /-- A member name. -/
  | name
  /-- The colon after a member name. -/
  | colon
  /-- A comma or the end of the container. -/
  | more
  /-- Nothing: the value is complete. -/
  | nothing (v : Json)

/-- The open containers, innermost first, and what may come next. -/
abbrev Building := List Frame × Want

/-- The most containers that may be open at once. -/
def maxDepth : Nat := 127

/-- Puts a finished value where it belongs. -/
def place (v : Json) : List Frame → Building
  | [] => ([], .nothing v)
  | .list items :: fs => (.list (v :: items) :: fs, .more)
  | .record members name :: fs => (.record (Entries.insert name v members) name :: fs, .more)

/-- Opens a container. -/
def push? (f : Frame) (w : Want) (fs : List Frame) : Option Building :=
  if fs.length < maxDepth then some (f :: fs, w) else none

/-- One step of the reader. -/
def buildStep? : Building → Token → Option Building
  | (fs, .value), .value v | (fs, .firstItem), .value v => some (place v fs)
  | (fs, .value), .openList | (fs, .firstItem), .openList => push? (.list []) .firstItem fs
  | (fs, .value), .openRecord | (fs, .firstItem), .openRecord =>
      push? (.record [] "") .firstName fs
  | (.list items :: fs, .firstItem), .closeList | (.list items :: fs, .more), .closeList =>
      some (place (.arr items.reverse) fs)
  | (.record members _ :: fs, .firstName), .value (.str s)
  | (.record members _ :: fs, .name), .value (.str s) => some (.record members s :: fs, .colon)
  | (.record members _ :: fs, .firstName), .closeRecord
  | (.record members _ :: fs, .more), .closeRecord => some (place (.obj members) fs)
  | (fs, .colon), .colon => some (fs, .value)
  | (.list items :: fs, .more), .comma => some (.list items :: fs, .value)
  | (.record members s :: fs, .more), .comma => some (.record members s :: fs, .name)
  | _, _ => none

/-- The value that a list of tokens writes. -/
def build? (ts : List Token) : Option Json :=
  match ts.foldlM buildStep? ([], .value) with
  | some ([], .nothing v) => some v
  | _ => none

/-- Reads a JSON document. -/
def read? (bytes : Blob) : Option Json := (Utf8.decode? bytes).bind fun cs => (lex? cs).bind build?

end PeerStore.Json
