import PeerStore.Double.Basic

/-!
# Shortest decimals

The decimal digits that stand for a double are the fewest that read back as it. For each number
of digits the two neighbours of the exact value on that decimal grid are tested; the first grid
with a hit wins, and of two hits the nearer one, of two equally near ones the larger.
-/

set_option autoImplicit false

namespace PeerStore.Double

/-- A decimal number `digits * 10 ^ exponent`. -/
structure Decimals where
  digits : Nat
  exponent : Int
  deriving DecidableEq, Repr

/-- The reals that round to a double: those between `low / unit` and `high / unit`, ends
included if `closed`. The double itself is `mid / unit`. -/
structure Interval where
  low : Nat
  mid : Nat
  high : Nat
  unit : Nat
  closed : Bool
  deriving Repr

/-- The interval of a finite double. The gap below a power of two is half the gap above. -/
def interval (x : Double) : Interval :=
  let m := x.significand
  let scale := Nat.pow 2 x.exponent.toNat
  { low := (4 * m - if m = Nat.pow 2 52 && decide (-1074 < x.exponent) then 1 else 2) * scale
    mid := 4 * m * scale
    high := (4 * m + 2) * scale
    unit := 4 * Nat.pow 2 (-x.exponent).toNat
    closed := m % 2 == 0 }

namespace Interval

/-- Whether `n * 10 ^ k` lies in the interval. -/
def contains (i : Interval) (n : Nat) (k : Int) : Bool :=
  let v := n * Nat.pow 10 k.toNat * i.unit
  let s := Nat.pow 10 (-k).toNat
  if i.closed then i.low * s ≤ v && v ≤ i.high * s else i.low * s < v && v < i.high * s

/-- The best multiple of `10 ^ k` in the interval, if there is one. -/
def nearest? (i : Interval) (k : Int) : Option Decimals :=
  let s := Nat.pow 10 (-k).toNat
  let g := Nat.pow 10 k.toNat * i.unit
  let n := i.mid * s / g
  let below := i.contains n k
  let above := i.contains (n + 1) k
  if below && above then
    if i.mid * s - n * g < (n + 1) * g - i.mid * s then some ⟨n, k⟩ else some ⟨n + 1, k⟩
  else if below then some ⟨n, k⟩
  else if above then some ⟨n + 1, k⟩
  else none

/-- The decimal exponent of the value: the `e` with `10 ^ e ≤ mid / unit < 10 ^ (e + 1)`, found
from the binary one. -/
def decimalExponent (i : Interval) : Int :=
  let e := ((i.mid.log2 : Int) - i.unit.log2) * 30103 / 100000
  let atLeast (k : Int) : Bool := Nat.pow 10 k.toNat * i.unit ≤ i.mid * Nat.pow 10 (-k).toNat
  if atLeast (e + 1) then e + 1 else if atLeast e then e else e - 1

/-- Tries the grids from the coarsest, at most `tries` of them. -/
def search (i : Interval) (k : Int) : Nat → Option Decimals
  | 0 => none
  | tries + 1 =>
      match i.nearest? k with
      | some d => some d
      | none => i.search (k - 1) tries

end Interval

/-- Drops the zero of a hit that is itself a power of ten on the next coarser grid. -/
def Decimals.normalize (d : Decimals) : Decimals :=
  if d.digits % 10 = 0 then ⟨d.digits / 10, d.exponent + 1⟩ else d

/-- The shortest decimals of a finite double other than zero; 17 digits always suffice. -/
def shortest (x : Double) : Decimals :=
  ((x.interval.search x.interval.decimalExponent 18).getD ⟨x.significand, 0⟩).normalize

end PeerStore.Double
