/-!
# Decimal integers

Reading of decimal integers: at least one ASCII digit, a sign in front where the type has one,
nothing else. A plus sign is allowed everywhere, a minus sign only for signed integers. Numbers
are read up to a cap: one that has reached it takes in no further digits, so that the cost of a
long run of digits is in proportion to its length. The cap is chosen where it makes no difference.
-/

set_option autoImplicit false

namespace PeerStore.Decimal

/-- The value of a digit. -/
def digit? (c : Char) : Option Nat :=
  if '0' ≤ c && c ≤ '9' then some (c.toNat - '0'.toNat) else none

/-- Continues a number by further digits, unless it has reached the cap. -/
def extend (cap n : Nat) : List Char → Option Nat
  | [] => some n
  | c :: cs =>
      match digit? c with
      | none => none
      | some d => extend cap (if n < cap then n * 10 + d else n) cs

/-- The number that a non-empty list of digits writes, exact below the cap. -/
def digits? (cap : Nat) : List Char → Option Nat
  | [] => none
  | c :: cs => extend cap 0 (c :: cs)

/-- Reads digits with an optional sign, exact below the cap. -/
def signed? (cap : Nat) : List Char → Option Int
  | '-' :: cs => (digits? cap cs).map fun n => -(n : Int)
  | '+' :: cs => (digits? cap cs).map fun n => (n : Int)
  | cs => (digits? cap cs).map fun n => (n : Int)

/-- Reads an unsigned integer of 64 bits; one out of range is refused. -/
def nat? (s : String) : Option Nat :=
  let cap := Nat.pow 2 64
  let n? :=
    match s.toList with
    | '+' :: cs => digits? cap cs
    | cs => digits? cap cs
  n?.filter (· < cap)

/-- Reads a signed integer of `bits` bits; one out of range is refused. -/
def intOfWidth? (bits : Nat) (s : String) : Option Int :=
  match signed? (Nat.pow 2 bits) s.toList with
  | none => none
  | some n => if -Int.pow 2 (bits - 1) ≤ n && n < Int.pow 2 (bits - 1) then some n else none

end PeerStore.Decimal
