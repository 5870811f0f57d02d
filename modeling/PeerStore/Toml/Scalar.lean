import PeerStore.Double.Text
import PeerStore.Toml.Value

/-!
# TOML numbers, dates and booleans

A word that is not a string is a boolean, a date or time, a float or an integer. `scalar?` decides
which, and refuses words that are none of them.
-/

set_option autoImplicit false

namespace PeerStore.Toml

/-! ## Digits -/

/-- Removes the underscores of a run of digits. Each must stand between two digits. -/
def plainDigits? (isDigit : Char → Bool) : List Char → Option (List Char)
  | [] => none
  | [c] => if isDigit c then some [c] else none
  | c :: '_' :: cs => if isDigit c then (plainDigits? isDigit cs).map (c :: ·) else none
  | c :: cs => if isDigit c then (plainDigits? isDigit cs).map (c :: ·) else none

/-- The value of a letter or digit in bases up to 16. -/
def digitValue (c : Char) : Nat :=
  if c.isDigit then c.toNat - '0'.toNat
  else if 'a' ≤ c then c.toNat - 'a'.toNat + 10
  else c.toNat - 'A'.toNat + 10

/-- The number that digits write in a base. One that no longer fits in 64 bits takes in no further
digits. -/
def inBase (base : Nat) (ds : List Char) : Nat :=
  ds.foldl (fun n c => if n < Nat.pow 2 64 then n * base + digitValue c else n) 0

def isHexDigit (c : Char) : Bool := c.isDigit || ('a' ≤ c && c ≤ 'f') || ('A' ≤ c && c ≤ 'F')
def isOctDigit (c : Char) : Bool := '0' ≤ c && c ≤ '7'
def isBinDigit (c : Char) : Bool := c == '0' || c == '1'

/-- The digits of a decimal integer without sign; a leading zero stands alone. -/
def wholeDigits? (cs : List Char) : Option (List Char) :=
  match plainDigits? Char.isDigit cs with
  | some ('0' :: _ :: _) => none
  | ds => ds

/-- Splits off a sign; `true` is a minus sign. -/
def sign (cs : List Char) : Bool × List Char :=
  match cs with
  | '-' :: cs => (true, cs)
  | '+' :: cs => (false, cs)
  | cs => (false, cs)

/-! ## Integers -/

/-- An integer within 64 bits. -/
def within64? (n : Int) : Option Int :=
  if -Int.pow 2 63 ≤ n && n < Int.pow 2 63 then some n else none

/-- Reads an integer: decimal with an optional sign, or in another base without one. -/
def int? (cs : List Char) : Option Int :=
  match cs with
  | '0' :: 'x' :: ds => (plainDigits? isHexDigit ds).bind fun ds => within64? (inBase 16 ds)
  | '0' :: 'o' :: ds => (plainDigits? isOctDigit ds).bind fun ds => within64? (inBase 8 ds)
  | '0' :: 'b' :: ds => (plainDigits? isBinDigit ds).bind fun ds => within64? (inBase 2 ds)
  | cs =>
      let (minus, cs) := sign cs
      (wholeDigits? cs).bind fun ds =>
        within64? (if minus then -(inBase 10 ds : Int) else inBase 10 ds)

/-! ## Floats -/

/-- The characters up to the first that satisfies a test, and the rest. -/
def cut (p : Char → Bool) (cs : List Char) : List Char × List Char :=
  (cs.takeWhile fun c => !p c, cs.dropWhile fun c => !p c)

/-- The exponent part of a float, without underscores. -/
def exponentPart? (cs : List Char) : Option (List Char) :=
  match cs with
  | [] => some []
  | 'e' :: cs | 'E' :: cs =>
      let (minus, ds) := sign cs
      (plainDigits? Char.isDigit ds).map fun ds => 'e' :: (if minus then '-' :: ds else ds)
  | _ => none

/-- The fraction and the exponent of a float, of which there must be one. -/
def fractionPart? (cs : List Char) : Option (List Char) :=
  match cs with
  | '.' :: cs =>
      let (fraction, rest) := cut (fun c => c == 'e' || c == 'E') cs
      (plainDigits? Char.isDigit fraction).bind fun fs =>
        (exponentPart? rest).map fun es => '.' :: fs ++ es
  | [] => none
  | cs => exponentPart? cs

/-- Reads a float. It has a fraction or an exponent, and one that is too large is refused; one
that is too small, below the negative numbers, is the negative infinity. -/
def float? (cs : List Char) : Option Double :=
  let (minus, body) := sign cs
  match String.ofList body with
  | "inf" => some (Double.infinity minus)
  | "nan" => some Double.nan
  | _ =>
      let (whole, rest) := cut (fun c => c == '.' || c == 'e' || c == 'E') body
      (wholeDigits? whole).bind fun ws =>
        (fractionPart? rest).bind fun fs =>
          (Double.readDecimal? minus (ws ++ fs)).filter fun x => x.isNegative || !x.isInfinite

/-! ## Dates and times -/

/-- A number of exactly `n` digits within bounds, and what follows it. -/
def field? (n low high : Nat) (cs : List Char) : Option (Nat × List Char) :=
  let ds := cs.take n
  if ds.length = n && ds.all Char.isDigit && decide (low ≤ inBase 10 ds) &&
      decide (inBase 10 ds ≤ high) then
    some (inBase 10 ds, cs.drop n)
  else none

/-- What follows a character. -/
def after? (c : Char) : List Char → Option (List Char)
  | [] => none
  | d :: cs => if c = d then some cs else none

/-- The number of days of a month. -/
def daysOf (year month : Nat) : Nat :=
  if month = 2 then
    if year % 400 = 0 || (year % 4 = 0 && year % 100 ≠ 0) then 29 else 28
  else if month = 4 || month = 6 || month = 9 || month = 11 then 30
  else 31

/-- Reads a date, and gives what follows it. -/
def date? (cs : List Char) : Option (List Char) := do
  let (year, cs) ← field? 4 0 9999 cs
  let cs ← after? '-' cs
  let (month, cs) ← field? 2 1 12 cs
  let cs ← after? '-' cs
  let (_, cs) ← field? 2 1 (daysOf year month) cs
  some cs

/-- Reads a time, and gives what follows it. -/
def time? (cs : List Char) : Option (List Char) := do
  let (_, cs) ← field? 2 0 23 cs
  let cs ← after? ':' cs
  let (_, cs) ← field? 2 0 59 cs
  let cs ← after? ':' cs
  let (_, cs) ← field? 2 0 60 cs
  match cs with
  | '.' :: cs =>
      let (ds, rest) := cut (fun c => !c.isDigit) cs
      if ds.isEmpty then none else some rest
  | cs => some cs

/-- Whether what follows a time is a time-zone offset, or nothing. -/
def isOffset (cs : List Char) : Bool :=
  match cs with
  | [] | ['Z'] | ['z'] => true
  | c :: cs =>
      (c == '+' || c == '-') &&
        (do
          let (_, cs) ← field? 2 0 23 cs
          let cs ← after? ':' cs
          let (_, cs) ← field? 2 0 59 cs
          some cs.isEmpty).getD false

/-- Whether a word is a date, a time, or both with an optional offset. -/
def isDatetime (cs : List Char) : Bool :=
  match date? cs with
  | some [] => true
  | some (c :: rest) =>
      (c == 'T' || c == 't' || c == ' ') && ((time? rest).map isOffset).getD false
  | none => ((time? cs).map List.isEmpty).getD false

/-! ## All of them -/

/-- The value of a word. -/
def scalar? (cs : List Char) : Option Value :=
  match String.ofList cs with
  | "true" => some (.bool true)
  | "false" => some (.bool false)
  | word =>
      if isDatetime cs then some (.datetime word)
      else match float? cs with
        | some x => some (.float x)
        | none => (int? cs).map .int

end PeerStore.Toml
