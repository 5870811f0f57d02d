import PeerStore.Blob

/-!
# Entries and records

An entry is a key with its value. A record adds what the store remembers about the write: its
time and the device it came from.
-/

set_option autoImplicit false

namespace PeerStore

/-- A key with its value. -/
structure Entry where
  key : Blob
  value : Blob
  deriving DecidableEq, Repr, Inhabited

/-- A value with the time of its write and the device that wrote it. -/
structure Stored where
  value : Blob
  time : Int
  device : String
  deriving DecidableEq, Repr, Inhabited

/-- What is stored under a key, with the key. -/
structure Record extends Stored where
  key : Blob
  deriving DecidableEq, Repr, Inhabited

namespace Record

/-- The record of a stored value. -/
def ofStored (key : Blob) (s : Stored) : Record := { s with key }

/-- The record as an entry. -/
def entry (r : Record) : Entry := ⟨r.key, r.value⟩

end Record

/-- Where a batch of writes comes from: this device, or a remote one. -/
inductive Origin where
  | here
  | remote (device : String)
  deriving DecidableEq, Repr

end PeerStore
