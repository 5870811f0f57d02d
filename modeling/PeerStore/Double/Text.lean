import PeerStore.Decimal
import PeerStore.Double.Round
import PeerStore.Double.Shortest

/-!
# Doubles as text

`Double.text` writes a double with its shortest decimals, never with an exponent and without a
point where there is no fraction. `Double.ofText?` reads a decimal number with optional fraction
and exponent, or one of the words for infinity and NaN, and rounds correctly.
-/

set_option autoImplicit false

namespace PeerStore.Double

/-! ## Writing -/

/-- Decimals in positional notation. -/
def positional (d : Decimals) : List Char :=
  let ds := Nat.toDigits 10 d.digits
  if 0 ≤ d.exponent then ds ++ List.replicate d.exponent.toNat '0'
  else
    let places := (-d.exponent).toNat
    if places < ds.length then
      ds.take (ds.length - places) ++ '.' :: ds.drop (ds.length - places)
    else '0' :: '.' :: (List.replicate (places - ds.length) '0' ++ ds)

/-- The text of a double. -/
def text (x : Double) : String :=
  if x.isNaN then "NaN"
  else
    let body :=
      if x.isInfinite then "inf".toList
      else if x.magnitude = 0 then ['0']
      else positional x.shortest
    String.ofList (if x.isNegative then '-' :: body else body)

/-! ## Reading -/

/-- Splits off the longest run of digits. -/
def spanDigits (cs : List Char) : List Char × List Char :=
  (cs.takeWhile Char.isDigit, cs.dropWhile Char.isDigit)

/-- Exponents are exact below this. A number with a larger one is out of range, unless it has
tens of thousands of digits itself. -/
def exponentCap : Nat := 65536

/-- Reads an exponent part, or its absence, up to the end of the text. -/
def readExponent? : List Char → Option Int
  | [] => some 0
  | c :: cs => if c = 'e' || c = 'E' then Decimal.signed? exponentCap cs else none

/-- The most digits that are read one by one. No double, and no point halfway between two, has
more than 767 of them, the first not zero. -/
def maxDigits : Nat := 800

/-- The digits that decide how a number is rounded, where the first is not zero. Of those behind
the most that are read, it only counts whether they are all zero, which one digit says. -/
def decisive (ds : List Char) : List Char :=
  ds.take maxDigits ++ if (ds.drop maxDigits).any (· != '0') then ['1'] else []

/-- The number of some digits. -/
def number (ds : List Char) : Nat :=
  ds.foldl (fun n c => n * 10 + (Decimal.digit? c).getD 0) 0

/-- Reads an unsigned decimal: digits before or after an optional point, at least one in all,
and an optional exponent. -/
def readDecimal? (negative : Bool) (cs : List Char) : Option Double :=
  let (whole, rest) := spanDigits cs
  let (fraction, rest) :=
    match rest with
    | '.' :: rest => spanDigits rest
    | rest => ([], rest)
  if whole.isEmpty && fraction.isEmpty then none
  else
    (readExponent? rest).map fun e =>
      let ds := (whole ++ fraction).dropWhile (· == '0')
      let ps := decisive ds
      ofDecimal negative (number ps) ps.length (e - fraction.length + ds.length - ps.length)

/-- Reads an unsigned number: a decimal or, in letters of either case, infinity or NaN. -/
def readUnsigned? (negative : Bool) (cs : List Char) : Option Double :=
  let word := String.ofList (cs.map Char.toLower)
  if word = "inf" || word = "infinity" then some (infinity negative)
  else if word = "nan" then some nan
  else readDecimal? negative cs

/-- Reads a double, with an optional sign. -/
def ofText? (s : String) : Option Double :=
  match s.toList with
  | '-' :: cs => readUnsigned? true cs
  | '+' :: cs => readUnsigned? false cs
  | cs => readUnsigned? false cs

end PeerStore.Double
