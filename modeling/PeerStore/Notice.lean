import PeerStore.Record

/-!
# Change notices

A `Notice` tells observers what one batch of writes changed: the keys that came to be, those
that were written over, and those that went. `Notice.classify` sorts the changed keys into the
three lists.
-/

set_option autoImplicit false

namespace PeerStore

/-- One key that a batch touched, with its value before and after. -/
structure Change where
  key : Blob
  before : Option Blob
  after : Option Blob
  deriving DecidableEq, Repr

namespace Change

/-- The entry of a key that came to be. -/
def inserted? : Change → Option Entry
  | ⟨key, none, some value⟩ => some ⟨key, value⟩
  | _ => none

/-- The entry of a key that was written over, with the new value. -/
def updated? : Change → Option Entry
  | ⟨key, some _, some value⟩ => some ⟨key, value⟩
  | _ => none

/-- The entry of a key that went, with the value it had. -/
def deleted? : Change → Option Entry
  | ⟨key, some value, none⟩ => some ⟨key, value⟩
  | _ => none

end Change

/-- What one batch of writes changed. -/
structure Notice where
  inserts : List Entry := []
  updates : List Entry := []
  deletes : List Entry := []
  /-- The batch removed everything there was. -/
  isClear : Bool := false
  /-- The device the batch came from. -/
  device : String := ""
  deriving DecidableEq, Repr, Inhabited

namespace Notice

/-- The notice of a list of changes, in their order. A key that is written over counts as
updated even if its value stays; a key absent before and after is left out. -/
def classify (changes : List Change) (device : String) : Notice where
  inserts := changes.filterMap Change.inserted?
  updates := changes.filterMap Change.updated?
  deletes := changes.filterMap Change.deleted?
  device := device

/-- Whether the notice has no entry. -/
def isEmpty (n : Notice) : Bool := n.inserts.isEmpty && n.updates.isEmpty && n.deletes.isEmpty

/-- The number of entries. -/
def size (n : Notice) : Nat := n.inserts.length + n.updates.length + n.deletes.length

/-- All entries: inserts, then updates, then deletes. -/
def entries (n : Notice) : List Entry := n.inserts ++ n.updates ++ n.deletes

/-- All keys, in the order of `entries`. -/
def keys (n : Notice) : List Blob := n.entries.map (·.key)

/-- Changes every entry by a function. -/
def map (f : Entry → Entry) (n : Notice) : Notice :=
  { n with inserts := n.inserts.map f, updates := n.updates.map f, deletes := n.deletes.map f }

end Notice

end PeerStore
