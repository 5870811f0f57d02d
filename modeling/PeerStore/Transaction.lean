import PeerStore.Notice
import PeerStore.Status
import PeerStore.Table

/-!
# Transactions

Inside a transaction writes take effect at once. For each key the record that it had before the
transaction first touched it is kept in an undo log, in the order of first touches. The log
serves to report the net changes and to restore the old state.

`Transaction` has the log as it is read. `TransactionSlot` holds it in two parts, the records in a
table by key and the keys in the order of first touches.
-/

set_option autoImplicit false

namespace PeerStore

/-- The life of a transaction slot. -/
inductive Phase where
  | idle
  | active
  | committed
  | rolledBack
  deriving DecidableEq, Repr

/-- The name of a phase. -/
def Phase.name : Phase → String
  | idle => "Idle"
  | active => "Active"
  | committed => "Committed"
  | rolledBack => "RolledBack"

/-- Touched keys, each with the record from before, in the order of first touches. -/
abbrev UndoLog := List (Blob × Option Record)

namespace UndoLog

/-- What changed since the transaction began, given the values that keys have now. -/
def netChanges (log : UndoLog) (now : Blob → Option Blob) (device : String) : Notice :=
  Notice.classify (log.map fun (key, prior) => ⟨key, prior.map (·.value), now key⟩) device

/-- The order in which records are put back: the last touched key first. -/
def restoreOrder (log : UndoLog) : UndoLog := log.reverse

end UndoLog

/-- Why a call does not fit the phase. -/
inductive TransactionError where
  | active (id : Nat)
  | notActive (phase : Phase)
  deriving DecidableEq, Repr

namespace TransactionError

/-- The wording shown to callers. -/
def message : TransactionError → String
  | active id => "Transaction " ++ toString id ++ " is already active"
  | notActive phase => "No active transaction (state: " ++ phase.name ++ ")"

/-- A call out of phase is a malformed argument. -/
def status (e : TransactionError) : Status := .invalidArgument e.message

end TransactionError

/-- The transaction slot of a store. -/
structure Transaction where
  phase : Phase := .idle
  /-- The number of the current or last transaction; 0 before the first. -/
  id : Nat := 0
  log : UndoLog := []
  deriving DecidableEq, Repr

namespace Transaction

/-- Whether a transaction is running. -/
def isActive (t : Transaction) : Bool := t.phase == .active

/-- Starts a transaction. -/
def start (t : Transaction) : Except TransactionError Transaction :=
  if t.isActive then .error (.active t.id)
  else .ok { phase := .active, id := t.id + 1, log := [] }

/-- Records what a key held before its first touch; tells whether this was the first. Nothing is
recorded outside a transaction. -/
def touch (t : Transaction) (key : Blob) (prior : Option Record) : Bool × Transaction :=
  if t.isActive && !t.log.any (·.1 == key) then (true, { t with log := t.log ++ [(key, prior)] })
  else (false, t)

/-- The undo log of the running transaction. -/
def undoLog (t : Transaction) : Except TransactionError UndoLog :=
  if t.isActive then .ok t.log else .error (.notActive t.phase)

/-- Ends the running transaction. -/
def finish (t : Transaction) (phase : Phase) : Except TransactionError Transaction :=
  if t.isActive then .ok { t with phase, log := [] } else .error (.notActive t.phase)

/-- Ends the running transaction and keeps what it did. -/
def commit (t : Transaction) : Except TransactionError Transaction := t.finish .committed

/-- Ends the running transaction, once what it did has been undone. -/
def rollback (t : Transaction) : Except TransactionError Transaction := t.finish .rolledBack

end Transaction

/-- The transaction slot of a store, with the undo log in two parts. -/
structure TransactionSlot where
  phase : Phase := .idle
  /-- The number of the current or last transaction; 0 before the first. -/
  id : Nat := 0
  /-- Under each touched key the record from before, or that there was none. -/
  preImages : Table Blob (Option Record) := Table.empty
  /-- The touched keys, in the order of first touches. -/
  touchOrder : List Blob := []
  deriving DecidableEq

namespace TransactionSlot

/-- Whether a transaction is running. -/
def isActive (t : TransactionSlot) : Bool := t.phase == .active

/-- Starts a transaction. -/
def start (t : TransactionSlot) : Except TransactionError TransactionSlot :=
  if t.isActive then .error (.active t.id)
  else .ok { phase := .active, id := t.id + 1, preImages := Table.empty, touchOrder := [] }

/-- Records what a key held before its first touch; tells whether this was the first. Whether it
was is asked of the table. Nothing is recorded outside a transaction. -/
def touch (t : TransactionSlot) (key : Blob) (prior : Option Record) : Bool × TransactionSlot :=
  if !t.isActive || t.preImages.contains key then (false, t)
  else
    (true, { t with
      preImages := t.preImages.insert key prior, touchOrder := t.touchOrder ++ [key] })

/-- The touched keys with what the table has under them. That a key is missing from the table and
that there was no record reads the same. -/
def entries (t : TransactionSlot) : UndoLog :=
  t.touchOrder.map fun key => (key, (t.preImages.get? key).join)

/-- The undo log of the running transaction. -/
def undoLog (t : TransactionSlot) : Except TransactionError UndoLog :=
  if t.isActive then .ok t.entries else .error (.notActive t.phase)

/-- Ends the running transaction. -/
def finish (t : TransactionSlot) (phase : Phase) : Except TransactionError TransactionSlot :=
  if t.isActive then .ok { t with phase, preImages := Table.empty, touchOrder := [] }
  else .error (.notActive t.phase)

/-- Ends the running transaction and keeps what it did. -/
def commit (t : TransactionSlot) : Except TransactionError TransactionSlot := t.finish .committed

/-- Ends the running transaction, once what it did has been undone. -/
def rollback (t : TransactionSlot) : Except TransactionError TransactionSlot :=
  t.finish .rolledBack

end TransactionSlot

end PeerStore
