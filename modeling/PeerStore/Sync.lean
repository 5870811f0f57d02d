import PeerStore.Query.Clause
import PeerStore.Status

/-!
# Sync requests

A `Coordinator` keeps the sync requests that wait for devices. Each device of a request reports
once; the request is finished when all have reported, or when its deadline has passed, and the
devices that are missing then count as timed out. A `SyncLink` hands requests to a transport.

A start and a shutdown are made of steps (`accept`, `takeNumber`, `deadlineOf`, `register`; `stop`,
`clear`), since a coordinator is shared by threads and its lock is held for some of them only. Here
callers take turns: `start` and `shutdown` make their steps with nobody in between.
-/

set_option autoImplicit false

namespace PeerStore

/-- The direction of a sync. -/
inductive SyncMode where
  | pull
  | push
  | pushPull
  deriving DecidableEq, Repr

/-- What a transport receives. -/
structure SyncRequest where
  seq : Nat
  store : String
  /-- The device ids to sync with, as they were asked for. -/
  devices : List String
  mode : SyncMode
  query : Option Query

/-- How the sync with a device went. -/
abbrev SyncResult := Except Status Unit

/-- A request that waits for devices. -/
structure PendingSync where
  devices : KeySet String
  results : Table String SyncResult := Table.empty
  /-- The time at which it is given up. -/
  deadline : Nat
  /-- Who is told when it is finished. -/
  callback : Option String

namespace PendingSync

/-- Whether every device has reported. -/
def isComplete (p : PendingSync) : Bool := p.results.size == p.devices.size

/-- Takes a report: the first of each device of the request counts. -/
def record (p : PendingSync) (device : String) (result : SyncResult) : PendingSync :=
  if p.devices.contains device && !p.results.contains device then
    { p with results := p.results.insert device result }
  else p

/-- Counts every device that is missing as timed out. -/
def giveUp (p : PendingSync) : PendingSync :=
  p.devices.keys.foldl (fun p device => p.record device (.error .timedOut)) p

end PendingSync

/-- A finished request: its number, who is told, and the result of each device. -/
structure FinishedSync where
  seq : Nat
  callback : Option String
  results : Table String SyncResult

/-- The requests of the stores that share a transport. Times are in milliseconds. -/
structure Coordinator where
  /-- What a transport gets on top of the delay that a request allows. -/
  timeout : Nat
  clock : Nat := 0
  nextSeq : Nat := 1
  pending : Table Nat PendingSync := Table.empty
  /-- The requests finished so far, in order. -/
  finished : List FinishedSync := []
  stopped : Bool := false

namespace Coordinator

/-- Whether a request for some devices is let in. -/
def accept (c : Coordinator) (devices : List String) : Except Status Unit :=
  if devices.isEmpty then .error (.invalidArgument "sync needs at least one device")
  else if c.stopped then .error (.backend "sync coordinator is shut down")
  else .ok ()

/-- Gives the next number away. -/
def takeNumber (c : Coordinator) : Coordinator := { c with nextSeq := c.nextSeq + 1 }

/-- When a request is given up that looks at the clock now. -/
def deadlineOf (c : Coordinator) (delay : Nat) : Nat := c.clock + delay + c.timeout

/-- Makes a request pending. Whether the coordinator is stopped is not asked again. -/
def register (c : Coordinator) (seq : Nat) (devices : List String) (deadline : Nat)
    (callback : Option String) : Coordinator :=
  { c with
    pending := c.pending.insert seq { devices := KeySet.ofList devices, deadline, callback } }

/-- Registers a request for at least one device. -/
def start (c : Coordinator) (store : String) (devices : List String) (mode : SyncMode)
    (query : Option Query) (delay : Nat) (callback : Option String) :
    Except Status (SyncRequest × Coordinator) :=
  match c.accept devices with
  | .error e => .error e
  | .ok () =>
      .ok (⟨c.nextSeq, store, devices, mode, query⟩,
        c.takeNumber.register c.nextSeq devices (c.deadlineOf delay) callback)

/-- Removes a request and counts it as finished. -/
def finish (c : Coordinator) (seq : Nat) (p : PendingSync) : Coordinator :=
  { c with
    pending := c.pending.erase seq
    finished := c.finished ++ [⟨seq, p.callback, p.results⟩] }

/-- Takes the report of a device. Unknown requests and devices and later reports are ignored. -/
def report (c : Coordinator) (seq : Nat) (device : String) (result : SyncResult) : Coordinator :=
  match c.pending.get? seq with
  | none => c
  | some p =>
      let p := p.record device result
      if p.isComplete then c.finish seq p else { c with pending := c.pending.insert seq p }

/-- Withdraws a request; nobody is told. -/
def cancel (c : Coordinator) (seq : Nat) : Bool × Coordinator :=
  (c.pending.contains seq, { c with pending := c.pending.erase seq })

/-- Time passes. -/
def elapse (c : Coordinator) (milliseconds : Nat) : Coordinator :=
  { c with clock := c.clock + milliseconds }

/-- The requests whose deadline has come. -/
def due (c : Coordinator) : List (Nat × PendingSync) :=
  c.pending.toList.filter fun e => e.2.deadline ≤ c.clock

/-- Gives up every request whose deadline has come. -/
def expire (c : Coordinator) : Coordinator :=
  c.due.foldl (fun c e => c.finish e.1 e.2.giveUp) c

/-- The earliest deadline. -/
def nextDeadline? (c : Coordinator) : Option Nat := (c.pending.toList.map (·.2.deadline)).min?

/-- Lets time pass until the earliest deadline, and gives up what is due then. -/
def skip (c : Coordinator) : Coordinator :=
  match c.nextDeadline? with
  | some deadline => (c.elapse (deadline - c.clock)).expire
  | none => c

/-- Lets time pass, deadline by deadline, until enough has happened or nothing is pending. -/
def waitUntil (c : Coordinator) (enough : Coordinator → Bool) : Coordinator :=
  Nat.repeat (fun c => if enough c then c else c.skip) c.pending.size c

/-- Lets no more requests in. -/
def stop (c : Coordinator) : Coordinator := { c with stopped := true }

/-- Drops all requests; nobody is told. -/
def clear (c : Coordinator) : Coordinator := { c with pending := Table.empty }

/-- Drops all requests and accepts no more. -/
def shutdown (c : Coordinator) : Coordinator := c.stop.clear

end Coordinator

/-! ## Transports -/

/-- What a transport does when it is handed a request: what it reports at once, and whether it
takes the request. -/
structure Reply where
  reports : List (String × SyncResult) := []
  outcome : Except Status Unit := .ok ()

/-- A transport with the requests that wait for it. -/
structure SyncLink where
  coordinator : Coordinator
  transport : SyncRequest → Reply
  /-- Every request handed to the transport so far. -/
  handed : List SyncRequest := []

namespace SyncLink

/-- Registers a request and hands it to the transport. A request that the transport refuses is
withdrawn. -/
def start (p : SyncLink) (store : String) (devices : List String) (mode : SyncMode)
    (query : Option Query) (delay : Nat) (callback : Option String) :
    Except Status Nat × SyncLink :=
  match p.coordinator.start store devices mode query delay callback with
  | .error e => (.error e, p)
  | .ok (request, coordinator) =>
      let reply := p.transport request
      let coordinator := reply.reports.foldl
        (fun c r => c.report request.seq r.1 r.2) coordinator
      let handed := p.handed ++ [request]
      match reply.outcome with
      | .ok () => (.ok request.seq, { p with coordinator, handed })
      | .error e =>
          (.error e, { p with coordinator := (coordinator.cancel request.seq).2, handed })

end SyncLink

end PeerStore
