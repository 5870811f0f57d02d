import PeerStore.Decimal
import PeerStore.Double.Round

/-!
# JSON numbers

A number is read into a significand of 64 bits and a power of ten. Digits that no longer fit
count as factors of ten before the point and are dropped after it. The significand is rounded
to a double and then scaled by powers of ten, each step rounding once; a number out of range
is refused.
-/

set_option autoImplicit false

namespace PeerStore.Json

/-! ## The parts of a number -/

/-- A significand with a power of ten. -/
structure Scaled where
  significand : Nat
  exponent : Int
  deriving DecidableEq, Repr

/-- Whether another digit keeps the significand within 64 bits. -/
def fits (significand digit : Nat) : Bool := significand * 10 + digit < Nat.pow 2 64

/-- Takes in the digits before the point; from the first that does not fit, each counts as a
factor of ten. -/
def takeWhole : Nat → List Nat → Scaled
  | s, [] => ⟨s, 0⟩
  | s, d :: ds => if fits s d then takeWhole (s * 10 + d) ds else ⟨s, ds.length + 1⟩

/-- Takes in the digits after the point, up to the first that does not fit. -/
def takeFraction : Scaled → List Nat → Scaled
  | n, [] => n
  | n, d :: ds =>
      if fits n.significand d then takeFraction ⟨n.significand * 10 + d, n.exponent - 1⟩ ds else n

/-! ## Scaling -/

/-- The double nearest to a power of ten. -/
def powerOfTen (k : Nat) : Double := Double.ofRatio false (Nat.pow 10 k) 1

/-- Divides by `10 ^ k`, in steps of the largest power of ten that is a double. -/
def scaleDown (x : Double) (k : Nat) : Double :=
  if k ≤ 308 then x.dividedBy (powerOfTen k)
  else if x.magnitude = 0 then x
  else scaleDown (x.dividedBy (powerOfTen 308)) (k - 308)
termination_by k

/-- The double of a significand and a power of ten; `none` if it is out of range. -/
def scale? (n : Scaled) : Option Double :=
  let x := Double.ofRatio false n.significand 1
  if n.exponent < 0 then some (scaleDown x (-n.exponent).toNat)
  else if n.exponent ≤ 308 then
    let y := x.times (powerOfTen n.exponent.toNat)
    if y.isInfinite then none else some y
  else if x.magnitude = 0 then some x
  else none

/-! ## Reading -/

/-- The digits at the front, as numbers, and what follows them. -/
def spanDigits (cs : List Char) : List Nat × List Char :=
  ((cs.takeWhile Char.isDigit).filterMap Decimal.digit?, cs.dropWhile Char.isDigit)

/-- Exponents that are larger all mean the same: out of range, or zero. -/
def exponentCap : Nat := Nat.pow 2 64

/-- Reads an exponent part, or its absence, up to the end. -/
def exponent? : List Char → Option Int
  | [] => some 0
  | c :: cs => if c = 'e' || c = 'E' then Decimal.signed? exponentCap cs else none

/-- Reads a number without its sign. No digit may stand before a leading zero's point, and a
point needs digits on both sides. -/
def readUnsigned? (cs : List Char) : Option Double :=
  let (whole, rest) := spanDigits cs
  if whole.isEmpty || (whole.head? = some 0 && decide (1 < whole.length)) then none
  else
    let n := takeWhole 0 whole
    match rest with
    | [] => if n.exponent = 0 then some (Double.ofRatio false n.significand 1) else scale? n
    | '.' :: rest =>
        let (fraction, rest) := spanDigits rest
        if fraction.isEmpty then none
        else
          match exponent? rest with
          | none => none
          | some e =>
              let n := takeFraction n fraction
              scale? ⟨n.significand, n.exponent + e⟩
    | rest =>
        match exponent? rest with
        | none => none
        | some e => scale? ⟨n.significand, n.exponent + e⟩

/-- Reads a number. -/
def number? : List Char → Option Double
  | '-' :: cs => (readUnsigned? cs).map fun x => Double.ofParts true x.magnitude
  | cs => readUnsigned? cs

end PeerStore.Json
