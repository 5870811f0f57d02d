import PeerStore.Store.Operation

/-!
# Hosts

A `Host` holds the stores of a process with what they share: the backends, the directory, the
transport and the shelf of cursors. Stores and backends have numbers that are never given again.
An operation on a store borrows its session from the host and puts it back.
-/

set_option autoImplicit false

namespace PeerStore

/-- A store with the number of its backend. -/
structure Hosted extends Store where
  backendId : Nat

/-- The stores of a process with what they share. -/
structure Host where
  directory : Directory
  /-- The transport for syncs, if there is one. -/
  link : Option SyncLink := none
  /-- Which observers crash. -/
  crashes : Crashes
  shelf : Shelf := {}
  nextBackend : Nat := 1
  backends : Table Nat Backend := Table.empty
  nextStore : Nat := 1
  stores : Table Nat Hosted := Table.empty

namespace Host

/-! ## Backends and stores -/

/-- Adds an empty backend; gives its number. -/
def addBackend (h : Host) : Nat × Host :=
  (h.nextBackend,
    { h with nextBackend := h.nextBackend + 1, backends := h.backends.insert h.nextBackend {} })

/-- Makes the writes of a backend fail, or succeed again. -/
def setFailing (h : Host) (backendId : Nat) (failing : Bool) : Host :=
  match h.backends.get? backendId with
  | some b => { h with backends := h.backends.insert backendId { b with failing } }
  | none => h

/-- Opens a store over a backend; gives its number. -/
def openStore (h : Host) (app id : String) (options : Options) (config : Config)
    (backendId : Nat) : Except Status (Nat × Host) :=
  match Store.openWith app id options config h.directory h.crashes with
  | .error e => .error e
  | .ok store =>
      .ok (h.nextStore,
        { h with
          nextStore := h.nextStore + 1
          stores := h.stores.insert h.nextStore { store with backendId } })

/-! ## Sessions -/

/-- The session of a store. -/
def session? (h : Host) (id : Nat) : Option Session :=
  match h.stores.get? id with
  | none => none
  | some hosted =>
      (h.backends.get? hosted.backendId).map fun backend =>
        { hosted.toStore with
          backend
          directory := h.directory
          link := h.link
          shelf := h.shelf }

/-- Puts the session of a store back. -/
def resume (h : Host) (id : Nat) (s : Session) : Host :=
  match h.stores.get? id with
  | none => h
  | some hosted =>
      { h with
        stores := h.stores.insert id { s.toStore with backendId := hosted.backendId }
        backends := h.backends.insert hosted.backendId s.backend
        directory := s.directory
        link := s.link
        shelf := s.shelf }

/-- Performs an operation on a store; there is no answer if there is no such store. -/
def perform (h : Host) (id : Nat) (now : Int) (op : Operation) :
    Option (Except Status Answer) × Host :=
  match h.session? id with
  | none => (none, h)
  | some s =>
      let (answer, s) := s.perform now op
      (some answer, h.resume id s)

/-- Closes a store. -/
def closeStore (h : Host) (id : Nat) : Host :=
  match h.session? id with
  | none => h
  | some s => h.resume id s.close

/-! ## Deliveries and time -/

/-- Delivers the notices on their way from one store. -/
def flushStore (h : Host) (id : Nat) : Host :=
  match h.stores.get? id with
  | none => h
  | some hosted =>
      { h with stores := h.stores.insert id { hosted with notifier := hosted.notifier.flush } }

/-- Delivers the notices on their way from every store. -/
def flush (h : Host) : Host := h.stores.keys.foldl flushStore h

/-- Changes the coordinator of the transport, if there is one. -/
def coordinate (h : Host) (f : Coordinator → Coordinator) : Host :=
  { h with link := h.link.map fun p => { p with coordinator := f p.coordinator } }

/-- Takes the report of a device. -/
def report (h : Host) (seq : Nat) (device : String) (result : SyncResult) : Host :=
  h.coordinate fun c => c.report seq device result

/-- Moves a cursor; tells whether it is then on an entry. -/
def moveCursor (h : Host) (id : Nat) (m : Cursor.Move) : Bool × Host :=
  let (moved, shelf) := h.shelf.move id m
  (moved, { h with shelf })

/-- Closes a cursor by itself. -/
def closeCursor (h : Host) (id : Nat) : Host := { h with shelf := h.shelf.close id }

/-- Drops a cursor that nobody uses any more. -/
def dropCursor (h : Host) (id : Nat) : Host := { h with shelf := h.shelf.drop id }

end Host

end PeerStore
