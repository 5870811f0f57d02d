/-!
# Dispatchers

A `Dispatcher` runs tasks one at a time in the order of their submission. Its worker takes the
next task (`begin?`) and finishes it (`finish`), whether or not the task crashes. Once stopped it
accepts no more tasks, and the worker still runs those in the queue.
-/

set_option autoImplicit false

namespace PeerStore

/-- A queue of tasks with its worker. -/
structure Dispatcher (α : Type) where
  queue : List α := []
  /-- The task that the worker is running. -/
  running : Option α := none
  /-- The tasks finished, in the order in which they ran. -/
  finished : List α := []
  stopped : Bool := false
  deriving Repr

/-- Why a task is not accepted. -/
inductive DispatchError where
  | stopped
  deriving DecidableEq, Repr

/-- The wording shown to callers. -/
def DispatchError.message : DispatchError → String
  | stopped => "notification dispatcher is shut down"

namespace Dispatcher

variable {α : Type}

/-- Puts a task at the end of the queue. -/
def submit (d : Dispatcher α) (task : α) : Except DispatchError (Dispatcher α) :=
  if d.stopped then .error .stopped else .ok { d with queue := d.queue ++ [task] }

/-- The number of tasks that wait. -/
def depth (d : Dispatcher α) : Nat := d.queue.length

/-- The number of tasks finished. -/
def delivered (d : Dispatcher α) : Nat := d.finished.length

/-- Whether no task waits or runs. -/
def isIdle (d : Dispatcher α) : Bool := d.queue.isEmpty && d.running.isNone

/-- The worker, when it is free, takes the next task. -/
def begin? (d : Dispatcher α) : Option (α × Dispatcher α) :=
  match d.running, d.queue with
  | none, task :: queue => some (task, { d with queue, running := some task })
  | _, _ => none

/-- The worker finishes the task it is running. -/
def finish (d : Dispatcher α) : Dispatcher α :=
  match d.running with
  | none => d
  | some task => { d with running := none, finished := d.finished ++ [task] }

/-- Stops accepting tasks. -/
def stop (d : Dispatcher α) : Dispatcher α := { d with stopped := true }

/-- The worker takes and finishes one task. -/
def runOne (d : Dispatcher α) : Dispatcher α :=
  match d.begin? with
  | some (_, d) => d.finish
  | none => d

/-- The worker finishes what it is running and then runs the whole queue. -/
def drain (d : Dispatcher α) : Dispatcher α := Nat.repeat runOne d.depth d.finish

/-- Stops accepting tasks and runs the whole queue. -/
def shutdown (d : Dispatcher α) : Dispatcher α := d.stop.drain

end Dispatcher

end PeerStore
