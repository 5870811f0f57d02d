import PeerStore.Backend
import PeerStore.KeySpace
import PeerStore.Notice
import PeerStore.Table

/-!
# Batches

A batch is a list of writes to stored keys. `Write.collapse` leaves one write for each key, the
last one, at the place of the first. An `Effect` is a write together with the record that its key
held before, and says what the batch has to do to the backend and what observers will hear of it.
-/

set_option autoImplicit false

namespace PeerStore

/-- A write to a stored key: its new value, or none to remove the key. -/
structure Write where
  key : Blob
  value : Option Blob
  deriving DecidableEq, Repr

namespace Write

/-- The write of a value. -/
def put (key value : Blob) : Write := ⟨key, some value⟩

/-- The removal of a key. -/
def remove (key : Blob) : Write := ⟨key, none⟩

/-- The writes kept of the part of a batch that was gone through, with the place of each key among
them. -/
structure Collapsed where
  places : Table Blob Nat := Table.empty
  writes : List Write := []

/-- Takes the next write. Its value goes to the place of its key, if it has one. -/
def Collapsed.add (c : Collapsed) (w : Write) : Collapsed :=
  match c.places.get? w.key with
  | some i => { c with writes := c.writes.modify i fun v => { v with value := w.value } }
  | none =>
      { places := c.places.insert w.key c.writes.length, writes := c.writes ++ [w] }

/-- Keeps one write for each key: its last, at the place of its first. -/
def collapse (batch : List Write) : List Write := (batch.foldl Collapsed.add {}).writes

end Write

/-- A write with the record that its key held before. -/
structure Effect extends Write where
  prior : Option Record
  deriving DecidableEq, Repr

namespace Effect

/-- The effects of a batch on a backend, one for each key. -/
def ofBatch (b : Backend) (batch : List Write) : List Effect :=
  (Write.collapse batch).map fun w => { w with prior := b.get? w.key }

/-- The entry that the backend has to write. -/
def put? (e : Effect) : Option Entry := e.value.map fun value => ⟨e.key, value⟩

/-- The key that the backend has to remove. -/
def removed? (e : Effect) : Option Blob :=
  if e.value.isNone && e.prior.isSome then some e.key else none

/-- The change that observers hear of. The key is a user key of the device that wrote it last, or
of `device` if it was absent. -/
def change (space : KeySpace) (device : String) (e : Effect) : Change where
  key := space.userKey ((e.prior.map (·.device)).getD device) e.key
  before := e.prior.map (·.value)
  after := e.value

end Effect

end PeerStore
