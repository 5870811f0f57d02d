import PeerStore.Record
import PeerStore.Status

/-!
# Cursors

A `Cursor` moves over a fixed list of entries. Its position runs from before the first entry
to behind the last; a move that goes further stops there and fails. A closed cursor answers
every question with a sentinel.
-/

set_option autoImplicit false

namespace PeerStore

/-- Why a cursor has no current entry. -/
inductive CursorError where
  | outOfRange (position count : Int)
  | closed
  deriving DecidableEq, Repr

namespace CursorError

/-- The wording shown to callers. -/
def message : CursorError → String
  | outOfRange position count =>
      "Cursor position " ++ toString position ++ " out of range for " ++
        toString count ++ " entries"
  | closed => "Cursor is closed"

/-- The failure of the store operation that asked. -/
def status : CursorError → Status
  | e@(outOfRange ..) => .invalidArgument e.message
  | closed => .alreadyClosed

end CursorError

/-- A cursor: its entries until it is closed, and its position. -/
structure Cursor where
  entries : Option (List Entry)
  position : Int
  deriving DecidableEq, Repr

namespace Cursor

/-- The position before the first entry. -/
def beforeFirst : Int := -1

/-- The position of a closed cursor. -/
def invalidPosition : Int := -2147483648

/-- The largest count. -/
def maxCount : Nat := 2147483647

/-- A cursor before the first of some entries. -/
def ofEntries (entries : List Entry) : Cursor := ⟨some entries, beforeFirst⟩

/-- Whether the cursor is closed. -/
def isClosed (c : Cursor) : Bool := c.entries.isNone

/-- The number of a list of entries, as far as it can be counted. -/
def countOf (entries : List Entry) : Int := min entries.length maxCount

/-- The number of entries; -1 once closed. -/
def count (c : Cursor) : Int :=
  match c.entries with
  | some entries => countOf entries
  | none => -1

/-! ## Moves -/

/-- Goes to a position, or to the end that lies in its direction. -/
def goTo (c : Cursor) (target : Int) : Bool × Cursor :=
  match c.entries with
  | none => (false, c)
  | some entries =>
      if target < 0 then (false, { c with position := beforeFirst })
      else if countOf entries ≤ target then (false, { c with position := countOf entries })
      else (true, { c with position := target })

/-- A move of a cursor. -/
inductive Move where
  | first
  | last
  | next
  | previous
  | by (offset : Int)
  | to (position : Int)
  deriving DecidableEq, Repr

/-- Makes a move; tells whether the cursor is then on an entry. -/
def move (c : Cursor) : Move → Bool × Cursor
  | .first => c.goTo 0
  | .last => c.goTo (c.count - 1)
  | .next => c.goTo (c.position + 1)
  | .previous => c.goTo (c.position - 1)
  | .by offset => c.goTo (c.position + offset)
  | .to position => c.goTo position

/-! ## Questions -/

def isBeforeFirst (c : Cursor) : Bool := !c.isClosed && c.position == beforeFirst

def isFirst (c : Cursor) : Bool := !c.isClosed && decide (0 < c.count) && c.position == 0

def isLast (c : Cursor) : Bool :=
  !c.isClosed && decide (0 < c.count) && c.position == c.count - 1

def isAfterLast (c : Cursor) : Bool := !c.isClosed && c.position == c.count

/-- The current entry. -/
def entry (c : Cursor) : Except CursorError Entry :=
  match c.entries with
  | none => .error .closed
  | some entries =>
      let current := if 0 ≤ c.position then entries[c.position.toNat]? else none
      match current with
      | some e => .ok e
      | none => .error (.outOfRange c.position (countOf entries))

/-- Closes the cursor. -/
def close (_ : Cursor) : Cursor := ⟨none, invalidPosition⟩

end Cursor

end PeerStore
