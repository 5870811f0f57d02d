import PeerStore.Double.Basic

/-!
# Rounding to a double

`Double.ofRatio` is the double nearest to a fraction, a tie going to the even significand.
Conversion of integers and decimals, products and quotients are all this one rounding of the
exact result.
-/

set_option autoImplicit false

namespace PeerStore.Double

/-- `num / den`, rounded to the nearest integer, a tie to the even one. -/
def roundDiv (num den : Nat) : Nat :=
  let q := num / den
  let r := num % den
  if 2 * r < den then q else if den < 2 * r then q + 1 else q + q % 2

/-- The binary exponent of a positive fraction: the `e` with `2 ^ e ≤ num / den < 2 ^ (e + 1)`. -/
def binaryExponent (num den : Nat) : Int :=
  let e : Int := (num.log2 : Int) - den.log2
  if den * Nat.pow 2 e.toNat ≤ num * Nat.pow 2 (-e).toNat then e else e - 1

/-- The double nearest to `num / den`. A result too large for a double is infinite. -/
def ofRatio (negative : Bool) (num den : Nat) : Double :=
  if num = 0 then ofParts negative 0
  else
    let q : Int := max (binaryExponent num den - 52) (-1074)
    let m := roundDiv (num * Nat.pow 2 (-q).toNat) (den * Nat.pow 2 q.toNat)
    ofParts negative (min ((q + 1074).toNat * Nat.pow 2 52 + m) infinite)

/-- The double nearest to an integer. -/
def ofInt (n : Int) : Double := ofRatio (decide (n < 0)) n.natAbs 1

/-- The double nearest to `digits * 10 ^ exponent`, where `digits` has `length` decimal digits, the
first of them not zero. Powers of ten far out of range are decided without being computed. -/
def ofDecimal (negative : Bool) (digits length : Nat) (exponent : Int) : Double :=
  if digits = 0 then ofParts negative 0
  else if exponent + length > 400 then infinity negative
  else if exponent + length < -400 then ofParts negative 0
  else ofRatio negative (digits * Nat.pow 10 exponent.toNat) (Nat.pow 10 (-exponent).toNat)

/-! ## Arithmetic on non-negative finite numbers -/

/-- The numerator of a finite absolute value. -/
def num (x : Double) : Nat := x.significand * Nat.pow 2 x.exponent.toNat

/-- The denominator of a finite absolute value. -/
def den (x : Double) : Nat := Nat.pow 2 (-x.exponent).toNat

/-- The rounded product. -/
def times (x y : Double) : Double := ofRatio false (x.num * y.num) (x.den * y.den)

/-- The rounded quotient, for a divisor other than zero. -/
def dividedBy (x y : Double) : Double := ofRatio false (x.num * y.den) (x.den * y.num)

end PeerStore.Double
