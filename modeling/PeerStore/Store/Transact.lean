import PeerStore.Store.Publish

/-!
# Transactions and closing

Changes made here while a transaction is active take effect at once and are announced together
by `commit`; `rollback` puts back what the keys held before. Closing a store rolls an active
transaction back.
-/

set_option autoImplicit false

namespace PeerStore.Session

/-- Starts a transaction. -/
def startTransaction (s : Session) : Result Unit :=
  s.whenOpen fun s =>
    match s.transaction.start with
    | .ok transaction => (.ok (), { s with transaction })
    | .error e => (.error e.status, s)

/-- Whether a transaction is active. -/
def inTransaction (s : Session) : Bool := s.transaction.isActive

/-! ## Commit -/

/-- The device that wrote a touched key last: by its record now, else by the one from before. -/
def ownerOf? (s : Session) (log : UndoLog) (key : Blob) : Option String :=
  match s.backend.get? key with
  | some r => some r.device
  | none => ((log.find? (·.1 == key)).bind (·.2)).map (·.device)

/-- The entry of a stored key as users see it. -/
def ownedEntry (s : Session) (log : UndoLog) (e : Entry) : Entry :=
  match s.ownerOf? log e.key with
  | some device => { e with key := s.space.userKey device e.key }
  | none => e

/-- The notice of what changed since a transaction began. -/
def netNotice (s : Session) (log : UndoLog) : Notice :=
  (log.netChanges (fun key => (s.backend.get? key).map (·.value)) s.profile.device).map
    (s.ownedEntry log)

/-- Keeps what the transaction did and announces what it changed. -/
def commit (s : Session) : Result Unit :=
  s.whenOpen fun s =>
    match s.transaction.undoLog, s.transaction.commit with
    | .error e, _ => (.error e.status, s)
    | .ok _, .error e => (.error e.status, s)
    | .ok log, .ok transaction =>
        (.ok (), { s with transaction }.announce .here (s.netNotice log))

/-! ## Rollback -/

/-- Puts back what keys held before a transaction touched them. -/
def restore (s : Session) (log : UndoLog) : Result Unit :=
  let records := log.restoreOrder.filterMap (·.2)
  let deletes := log.restoreOrder.filterMap fun e => if e.2.isNone then some e.1 else none
  if records.isEmpty && deletes.isEmpty then (.ok (), s)
  else
    match s.backend.restore records deletes with
    | .ok backend => (.ok (), { s with backend })
    | .error e => (.error e, s)

/-- Undoes what the transaction did. If the backend fails the transaction stays active. -/
def rollback (s : Session) : Result Unit :=
  s.whenOpen fun s =>
    match s.transaction.undoLog with
    | .error e => (.error e.status, s)
    | .ok log =>
        match s.restore log with
        | (.error e, s) => (.error e, s)
        | (.ok (), s) =>
            match s.transaction.rollback with
            | .ok transaction => (.ok (), { s with transaction })
            | .error e => (.error e.status, s)

/-! ## Closing -/

/-- Undoes an active transaction as far as the backend allows, and ends it. -/
def abandon (s : Session) : Session :=
  match s.transaction.undoLog with
  | .error _ => s
  | .ok log =>
      let s := (s.restore log).2
      match s.transaction.rollback with
      | .ok transaction => { s with transaction }
      | .error _ => s

/-- Closes the store: its transaction is undone, its result sets are closed, and its observers are
forgotten once they have had every notice on its way. A closed store stays as it is. -/
def close (s : Session) : Session :=
  if s.isOpen then
    let s := s.abandon
    { s with
      isOpen := false
      shelf := s.shelf.closeAll s.cursors.keys
      cursors := Table.empty
      notifier := s.notifier.shutdown.clearSubscriptions
      callback := none }
  else s

end PeerStore.Session
