/-!
# Double-precision numbers

A `Double` is its 64 bits: a sign and a magnitude, which is also an order key, since larger
magnitudes stand for larger numbers. Numbers are compared on these keys, where the two zeros
agree and NaN is comparable to nothing (`compare?`).
-/

set_option autoImplicit false

namespace PeerStore

/-- A double-precision number, as its bits. -/
structure Double where
  bits : UInt64
  deriving DecidableEq, Repr, Inhabited

namespace Double

/-- Whether the sign bit is set. -/
def isNegative (x : Double) : Bool := decide (Nat.pow 2 63 ≤ x.bits.toNat)

/-- The bits without the sign. -/
def magnitude (x : Double) : Nat := x.bits.toNat % Nat.pow 2 63

/-- The magnitude of infinity; NaN has a larger one. -/
def infinite : Nat := 2047 * Nat.pow 2 52

/-- The number of a sign and a magnitude. -/
def ofParts (negative : Bool) (magnitude : Nat) : Double :=
  ⟨UInt64.ofNat (magnitude + if negative then Nat.pow 2 63 else 0)⟩

/-- The positive zero. -/
def zero : Double := ⟨0⟩

/-- A NaN. -/
def nan : Double := ofParts false (2047 * Nat.pow 2 52 + Nat.pow 2 51)

/-- Infinity, of either sign. -/
def infinity (negative : Bool) : Double := ofParts negative infinite

def isNaN (x : Double) : Bool := decide (infinite < x.magnitude)

def isInfinite (x : Double) : Bool := decide (x.magnitude = infinite)

/-- The integer `m` of the absolute value `m * 2 ^ exponent` of a finite number. -/
def significand (x : Double) : Nat :=
  if x.magnitude < Nat.pow 2 52 then x.magnitude else x.magnitude % Nat.pow 2 52 + Nat.pow 2 52

/-- The exponent of the absolute value `significand * 2 ^ exponent` of a finite number. -/
def exponent (x : Double) : Int :=
  if x.magnitude < Nat.pow 2 52 then -1074 else (x.magnitude / Nat.pow 2 52 : Nat) - 1075

/-! ## Comparison -/

/-- The integer that numbers other than NaN are ordered by. -/
def orderKey (x : Double) : Int := if x.isNegative then -(x.magnitude : Int) else x.magnitude

/-- The order of two numbers, if neither is NaN. -/
def compare? (x y : Double) : Option Ordering :=
  if x.isNaN || y.isNaN then none else some (compare x.orderKey y.orderKey)

end Double

end PeerStore
