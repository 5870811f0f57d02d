import PeerStore.Toml.Quoted

/-!
# Reading TOML

A document is a sequence of lines: empty ones, headers, and keys with their values. `Toml.read?`
gives the members of its root table, or nothing if a line is malformed or names something twice.
-/

set_option autoImplicit false

namespace PeerStore.Toml

/-! ## Blanks and comments -/

/-- Drops spaces and tabs. -/
def skipBlanks (cs : List Char) : List Char := cs.dropWhile fun c => c == ' ' || c == '\t'

/-- Drops a comment, if there is one. -/
def skipComment (cs : List Char) : List Char :=
  match cs with
  | '#' :: cs => cs.dropWhile isPlain
  | cs => cs

/-- Drops blanks, comments and line breaks, as they may stand inside lists. -/
def skipLines : (steps : Nat) → List Char → List Char
  | 0, cs => cs
  | n + 1, cs =>
      let rest := skipComment (skipBlanks cs)
      match lineBreak? rest with
      | some rest => skipLines n rest
      | none => rest

/-- The end of a line: blanks, a comment, and a line break or the end of the text. -/
def endOfLine? (cs : List Char) : Option (List Char) :=
  match skipComment (skipBlanks cs) with
  | [] => some []
  | cs => lineBreak? cs

/-! ## Keys -/

/-- Characters of a key that needs no quotes. -/
def isBareKey (c : Char) : Bool :=
  c.isDigit || ('a' ≤ c && c ≤ 'z') || ('A' ≤ c && c ≤ 'Z') || c == '_' || c == '-'

/-- Reads one part of a key. -/
def simpleKey? (cs : List Char) : Option (String × List Char) :=
  match shortString? cs with
  | some r => some r
  | none =>
      let name := cs.takeWhile isBareKey
      if name.isEmpty then none else some (String.ofList name, cs.drop name.length)

/-- The most parts of a key. -/
def maxKeyParts : Nat := 79

/-- Reads a key: its parts but the last, the last, and what follows. -/
def key? : (parts : Nat) → List Char → Option (List String × String × List Char)
  | 0, _ => none
  | n + 1, cs => do
      let (name, rest) ← simpleKey? (skipBlanks cs)
      match skipBlanks rest with
      | '.' :: rest => do
          let (path, last, rest) ← key? n rest
          some (name :: path, last, rest)
      | rest => some ([], name, rest)

/-! ## Values -/

/-- The most lists and inline tables inside each other. -/
def maxNesting : Nat := 79

/-- Characters that end a word. -/
def endsWord (c : Char) : Bool :=
  c == ' ' || c == '\t' || c == '\n' || c == '\r' || c == ',' || c == ']' || c == '}' || c == '#'

/-- Reads a word. One space may stand between a date and a time. -/
def word? (cs : List Char) : Option (Value × List Char) :=
  let (word, rest) := cut endsWord cs
  let longer : Option (Value × List Char) :=
    match date? word, rest with
    | some [], ' ' :: more =>
        let (time, rest) := cut endsWord more
        if isDatetime (word ++ ' ' :: time) then
          some (.datetime (String.ofList (word ++ ' ' :: time)), rest)
        else none
    | _, _ => none
  match longer with
  | some r => some r
  | none => (scalar? word).map fun v => (v, rest)

/-- Reads the items of a list up to its closing bracket. A comma may follow the last. -/
def items? (value? : List Char → Option (Value × List Char)) :
    (steps : Nat) → (seen : List Value) → List Char → Option (List Value × List Char)
  | 0, _, _ => none
  | n + 1, seen, cs =>
      match skipLines cs.length cs with
      | ']' :: rest => some (seen.reverse, rest)
      | cs => do
          let (v, rest) ← value? cs
          match skipLines rest.length rest with
          | ',' :: rest => items? value? n (v :: seen) rest
          | ']' :: rest => some ((v :: seen).reverse, rest)
          | _ => none

/-- Reads a key, an equals sign and a value. -/
def pair? (value? : List Char → Option (Value × List Char)) (cs : List Char) :
    Option (List String × String × Value × List Char) := do
  let (path, name, rest) ← key? maxKeyParts cs
  match rest with
  | '=' :: rest => do
      let (v, rest) ← value? (skipBlanks rest)
      some (path, name, v, rest)
  | _ => none

/-- Reads the members of an inline table up to its closing brace, at least one. -/
def members? (value? : List Char → Option (Value × List Char)) :
    (steps : Nat) → Members → List Char → Option (Members × List Char)
  | 0, _, _ => none
  | n + 1, ms, cs => do
      let (path, name, v, rest) ← pair? value? cs
      let ms ← Members.insertAt .inline path name v ms
      match skipBlanks rest with
      | ',' :: rest => members? value? n ms rest
      | '}' :: rest => some (ms, rest)
      | _ => none

/-- Reads a value, with at most `depth` lists and inline tables inside each other. -/
def value? : (depth : Nat) → List Char → Option (Value × List Char)
  | depth, cs =>
      match cs with
      | '"' :: _ | '\'' :: _ => (string? cs).map fun (s, rest) => (.str s, rest)
      | '[' :: rest =>
          match depth with
          | 0 => none
          | depth + 1 =>
              (items? (value? depth) (rest.length + 1) [] rest).map fun (vs, rest) =>
                (.list vs, rest)
      | '{' :: rest =>
          match depth with
          | 0 => none
          | depth + 1 =>
              match skipBlanks rest with
              | '}' :: rest => some (.table .inline [], rest)
              | rest =>
                  (members? (value? depth) (rest.length + 1) [] rest).map fun (ms, rest) =>
                    (.table .inline ms, rest)
      | cs => word? cs

/-! ## Documents -/

/-- The root table and the path of the last header. -/
structure Document where
  root : Members := []
  header : List String := []

/-- Reads one line. -/
def line? (d : Document) (cs : List Char) : Option (Document × List Char) :=
  match skipBlanks cs with
  | '[' :: '[' :: rest => do
      let (path, name, rest) ← key? maxKeyParts rest
      match rest with
      | ']' :: ']' :: rest => do
          let root ← d.root.openItem path name
          let rest ← endOfLine? rest
          some (⟨root, path ++ [name]⟩, rest)
      | _ => none
  | '[' :: rest => do
      let (path, name, rest) ← key? maxKeyParts rest
      match rest with
      | ']' :: rest => do
          let root ← d.root.openTable path name
          let rest ← endOfLine? rest
          some (⟨root, path ++ [name]⟩, rest)
      | _ => none
  | cs =>
      match endOfLine? cs with
      | some rest => some (d, rest)
      | none => do
          let (path, name, v, rest) ← pair? (value? maxNesting) cs
          let root ← d.root.insertUnder d.header path name v
          let rest ← endOfLine? rest
          some ({ d with root }, rest)

/-- Reads lines to the end of the text. Each line takes at least one character. -/
def lines? : (steps : Nat) → Document → List Char → Option Document
  | _, d, [] => some d
  | 0, _, _ :: _ => none
  | n + 1, d, cs => (line? d cs).bind fun (d, rest) => lines? n d rest

/-- Reads a document. A byte-order mark may stand in front. -/
def read? (text : String) : Option Members :=
  let cs :=
    match text.toList with
    | '\uFEFF' :: cs => cs
    | cs => cs
  (lines? cs.length {} cs).map (·.root)

end PeerStore.Toml
