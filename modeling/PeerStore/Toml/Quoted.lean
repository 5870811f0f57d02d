import PeerStore.Toml.Scalar

/-!
# TOML strings

Strings stand in double quotes, with escapes, or in single quotes, without; three quotes allow
line breaks. Each reader is given the characters behind the opening quotes and returns the
string with the characters behind the closing ones.
-/

set_option autoImplicit false

namespace PeerStore.Toml

/-- Characters that may stand in a comment or a string: all but control characters other than the
tab. -/
def isPlain (c : Char) : Bool := c == '\t' || (0x20 ≤ c.toNat && c.toNat != 0x7F)

/-- The character of `n` hexadecimal digits, and what follows them. -/
def hexChar? (n : Nat) (cs : List Char) : Option (Char × List Char) :=
  let ds := cs.take n
  let code := inBase 16 ds
  if ds.length = n && ds.all isHexDigit && (code < 0xD800 || (0xDFFF < code && code < 0x110000))
  then some (Char.ofNat code, cs.drop n)
  else none

/-- The character of an escape, and what follows it. -/
def escape? : List Char → Option (Char × List Char)
  | 'b' :: cs => some (Char.ofNat 8, cs)
  | 't' :: cs => some ('\t', cs)
  | 'n' :: cs => some ('\n', cs)
  | 'f' :: cs => some (Char.ofNat 12, cs)
  | 'r' :: cs => some ('\r', cs)
  | '"' :: cs => some ('"', cs)
  | '\\' :: cs => some ('\\', cs)
  | 'u' :: cs => hexChar? 4 cs
  | 'U' :: cs => hexChar? 8 cs
  | _ => none

/-- What follows a line break. -/
def lineBreak? : List Char → Option (List Char)
  | '\n' :: cs => some cs
  | '\r' :: '\n' :: cs => some cs
  | _ => none

/-- Drops spaces, tabs and line breaks. -/
def skipSpace : List Char → List Char
  | '\n' :: cs => skipSpace cs
  | '\r' :: '\n' :: cs => skipSpace cs
  | ' ' :: cs => skipSpace cs
  | '\t' :: cs => skipSpace cs
  | cs => cs

/-- Drops the white space and line breaks after a backslash at the end of a line. At least one
line break has to be there. -/
def skipBreak? (cs : List Char) : Option (List Char) :=
  (lineBreak? (cs.dropWhile fun c => c == ' ' || c == '\t')).map skipSpace

/-- Reads a string in double quotes. `seen` is what has been read, in reverse; each step takes at
least one character, so the number of characters bounds the steps. -/
def basic? : (steps : Nat) → (seen : List Char) → List Char → Option (String × List Char)
  | 0, _, _ => none
  | n + 1, seen, cs =>
      match cs with
      | [] => none
      | '"' :: cs => some (String.ofList seen.reverse, cs)
      | '\\' :: cs => (escape? cs).bind fun (c, cs) => basic? n (c :: seen) cs
      | c :: cs => if isPlain c then basic? n (c :: seen) cs else none

/-- Reads a string in single quotes. -/
def literal? : (seen : List Char) → List Char → Option (String × List Char)
  | _, [] => none
  | seen, c :: cs =>
      if c = '\'' then some (String.ofList seen.reverse, cs)
      else if isPlain c then literal? (c :: seen) cs
      else none

/-- Closing quotes: three of them, before which the string may still end in one or two. -/
def closing? (q : Char) (seen : List Char) (cs : List Char) : Option (String × List Char) :=
  let quotes := (cs.takeWhile (· == q)).length
  if quotes < 3 then none
  else
    let own := min (quotes - 3) 2
    some (String.ofList (List.replicate own q ++ seen).reverse, cs.drop (own + 3))

/-- Reads a string in three double quotes. -/
def basicLines? : (steps : Nat) → (seen : List Char) → List Char → Option (String × List Char)
  | 0, _, _ => none
  | n + 1, seen, cs =>
      match closing? '"' seen cs with
      | some r => some r
      | none =>
          match lineBreak? cs with
          | some cs => basicLines? n ('\n' :: seen) cs
          | none =>
              match cs with
              | [] => none
              | '\\' :: cs =>
                  match escape? cs with
                  | some (c, cs) => basicLines? n (c :: seen) cs
                  | none => (skipBreak? cs).bind (basicLines? n seen)
              | c :: cs => if isPlain c then basicLines? n (c :: seen) cs else none

/-- Reads a string in three single quotes. -/
def literalLines? : (steps : Nat) → (seen : List Char) → List Char → Option (String × List Char)
  | 0, _, _ => none
  | n + 1, seen, cs =>
      match closing? '\'' seen cs with
      | some r => some r
      | none =>
          match lineBreak? cs with
          | some cs => literalLines? n ('\n' :: seen) cs
          | none =>
              match cs with
              | [] => none
              | c :: cs => if isPlain c then literalLines? n (c :: seen) cs else none

/-- Drops the line break right behind three opening quotes. -/
def afterOpening (cs : List Char) : List Char := (lineBreak? cs).getD cs

/-- Reads a string of any of the four forms. -/
def string? (cs : List Char) : Option (String × List Char) :=
  match cs with
  | '"' :: '"' :: '"' :: cs => basicLines? (cs.length + 1) [] (afterOpening cs)
  | '\'' :: '\'' :: '\'' :: cs => literalLines? (cs.length + 1) [] (afterOpening cs)
  | '"' :: cs => basic? (cs.length + 1) [] cs
  | '\'' :: cs => literal? [] cs
  | _ => none

/-- Reads a string of a form without line breaks. -/
def shortString? (cs : List Char) : Option (String × List Char) :=
  match cs with
  | '"' :: cs => basic? (cs.length + 1) [] cs
  | '\'' :: cs => literal? [] cs
  | _ => none

end PeerStore.Toml
