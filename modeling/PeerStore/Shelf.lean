import PeerStore.Cursor
import PeerStore.Table

/-!
# Shelves

A `Shelf` holds the cursors in use, of all stores. Each has a number of its own that is never
given again, so a number names at most one cursor for good.
-/

set_option autoImplicit false

namespace PeerStore

/-- The cursors in use, by number. -/
structure Shelf where
  /-- The number of the next cursor. -/
  next : Nat := 1
  cursors : Table Nat Cursor := Table.empty
  deriving DecidableEq

namespace Shelf

/-- Puts a new cursor on the shelf; gives its number. -/
def add (s : Shelf) (c : Cursor) : Nat × Shelf :=
  (s.next, { next := s.next + 1, cursors := s.cursors.insert s.next c })

/-- The cursor with a number. -/
def get? (s : Shelf) (id : Nat) : Option Cursor := s.cursors.get? id

/-- Whether a cursor is in use and open. -/
def isOpen (s : Shelf) (id : Nat) : Bool := (s.get? id).any fun c => !c.isClosed

/-- Exchanges a cursor for what a function makes of it. -/
def update (s : Shelf) (id : Nat) (f : Cursor → Cursor) : Shelf :=
  match s.get? id with
  | some c => { s with cursors := s.cursors.insert id (f c) }
  | none => s

/-- Moves a cursor; tells whether it is then on an entry. -/
def move (s : Shelf) (id : Nat) (m : Cursor.Move) : Bool × Shelf :=
  ((s.get? id).any fun c => (c.move m).1, s.update id fun c => (c.move m).2)

/-- Closes a cursor. -/
def close (s : Shelf) (id : Nat) : Shelf := s.update id Cursor.close

/-- Closes cursors. -/
def closeAll (s : Shelf) (ids : List Nat) : Shelf := ids.foldl close s

/-- Takes a cursor that nobody uses any more from the shelf. -/
def drop (s : Shelf) (id : Nat) : Shelf := { s with cursors := s.cursors.erase id }

end Shelf

end PeerStore
