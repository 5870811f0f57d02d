import PeerStore.Blob

/-!
# UTF-8

`Utf8.scan` cuts a byte string into characters and broken pieces in one pass: a byte that cannot
continue the character under way ends it as broken and is looked at again as the start of the
next. `decode?` accepts texts without broken pieces, `lossy` puts the replacement character for
each of them.
-/

set_option autoImplicit false

namespace PeerStore.Utf8

/-- A character under way: how many bytes it still needs, the bounds of the next one, and the
bits so far. -/
structure Partial where
  owed : Nat
  low : Nat
  high : Nat
  code : Nat

/-- What a byte between characters stands for. -/
inductive Start where
  | char (c : Char)
  | more (p : Partial)
  | broken

/-- The start of a character. The bounds of the second byte rule out overlong forms, surrogates
and code points above the last one. -/
def start (b : Nat) : Start :=
  if b < 0x80 then .char (Char.ofNat b)
  else if b < 0xC2 then .broken
  else if b < 0xE0 then .more ⟨1, 0x80, 0xBF, b - 0xC0⟩
  else if b < 0xF0 then
    .more ⟨2, if b = 0xE0 then 0xA0 else 0x80, if b = 0xED then 0x9F else 0xBF, b - 0xE0⟩
  else if b < 0xF5 then
    .more ⟨3, if b = 0xF0 then 0x90 else 0x80, if b = 0xF4 then 0x8F else 0xBF, b - 0xF0⟩
  else .broken

/-- The pieces of `bs`, in front of which `seen` has been read, in reverse: characters, and
`none` for each broken piece. -/
def scanFrom : Option Partial → List (Option Char) → Blob → List (Option Char)
  | none, seen, [] => seen.reverse
  | some _, seen, [] => (none :: seen).reverse
  | none, seen, b :: bs => fresh seen (start b.toNat) bs
  | some p, seen, b :: bs =>
      if p.low ≤ b.toNat && b.toNat ≤ p.high then
        let code := p.code * 64 + (b.toNat - 0x80)
        if p.owed = 1 then scanFrom none (some (Char.ofNat code) :: seen) bs
        else scanFrom (some ⟨p.owed - 1, 0x80, 0xBF, code⟩) seen bs
      else fresh (none :: seen) (start b.toNat) bs
where
  fresh (seen : List (Option Char)) : Start → Blob → List (Option Char)
    | .char c, bs => scanFrom none (some c :: seen) bs
    | .more p, bs => scanFrom (some p) seen bs
    | .broken, bs => scanFrom none (none :: seen) bs

/-- The characters and broken pieces of a byte string. -/
def scan (bs : Blob) : List (Option Char) := scanFrom none [] bs

/-- The text of a byte string, if it is well formed. -/
def decode? (bs : Blob) : Option (List Char) :=
  let cs := scan bs
  if cs.all Option.isSome then some (cs.filterMap id) else none

/-- The text of a byte string, with a replacement character for each broken piece. -/
def lossy (bs : Blob) : String := String.ofList ((scan bs).map (·.getD (Char.ofNat 0xFFFD)))

end PeerStore.Utf8
