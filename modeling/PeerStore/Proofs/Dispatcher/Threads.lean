import PeerStore.Dispatcher

/-!
# The two threads of a dispatcher

One thread calls a dispatcher, and its worker runs the tasks. `Threads` is the dispatcher with the
places where the two are: a thread can sleep until the other wakes it, and the lock of the queue
makes one step of what happens under it. In which order the threads take their turns is open
(`Threads.run`). `Threads.Step` says once what a turn can do (**`Threads.turn_cases`**); a turn of a
thread that sleeps does nothing. What the calls come to when nothing interleaves is `Call.effect`,
and draining is the same whatever the worker has done already (**`drain_eq`**).
-/

set_option autoImplicit false

namespace PeerStore.Dispatcher

/-! ## Calls -/

/-- A call of the thread that uses a dispatcher. -/
inductive Call (α : Type) where
  | submit (task : α)
  | drain
  | shutdown
  deriving DecidableEq, Repr

namespace Call

variable {α : Type}

/-- What a call makes of a dispatcher if the calling thread finds nobody in its way. -/
def effect (d : Dispatcher α) : Call α → Dispatcher α
  | .submit task => (d.submit task).toOption.getD d
  | .drain => d.drain
  | .shutdown => d.shutdown

/-- The task that a call submits. -/
@[simp] def task? : Call α → Option α
  | .submit task => some task
  | _ => none

@[simp] def isShutdown : Call α → Bool
  | .shutdown => true
  | _ => false

end Call

/-! ## Threads -/

/-- Where the calling thread is. -/
inductive Caller where
  /-- It begins the next call, or looks again whether the dispatcher is drained. -/
  | ready
  /-- It has queued a task, and wakes the worker next. -/
  | announcing
  /-- It sleeps until a task is finished. -/
  | waiting
  /-- It has stopped the dispatcher, and wakes the worker next. -/
  | alarming
  /-- It sleeps until the worker is gone. -/
  | joining
  deriving DecidableEq, Repr

/-- Where the worker is while it runs no task. -/
inductive Worker where
  /-- It looks into the queue next. -/
  | awake
  /-- It sleeps until there is something to do. -/
  | asleep
  /-- It has returned. -/
  | gone
  deriving DecidableEq, Repr

/-- What is remembered of the past. -/
inductive Event (α : Type) where
  | accepted (task : α)
  | refused (task : α)
  /-- A shutdown has been called. -/
  | stopped
  /-- A drain has returned. -/
  | drained
  /-- A shutdown has returned. -/
  | closed
  | started (task : α)
  | ended (task : α) (crashed : Bool)
  deriving DecidableEq, Repr

/-- A dispatcher with its two threads. -/
structure Threads (α : Type) where
  dispatcher : Dispatcher α := {}
  /-- The calls that have not returned. The first may be in progress. -/
  calls : List (Call α)
  caller : Caller := .ready
  worker : Worker := .awake
  /-- Whether a shutdown has waited for the worker, or does so. No other waits for it again. -/
  joined : Bool := false
  past : List (Event α) := []

/-- Whose turn it is. If the worker is running a task, the turn ends it, and says whether it
crashes. -/
inductive Turn where
  | caller
  | worker (crashes : Bool)
  deriving DecidableEq, Repr

namespace Threads

variable {α : Type}

/-- The calling thread wakes the worker. -/
def wake (s : Threads α) : Worker :=
  match s.worker with
  | .asleep => .awake
  | w => w

/-- The next step of the calling thread. Since no other thread stops the dispatcher, a task is
queued in the same step in which it is accepted. -/
def call (s : Threads α) : Threads α :=
  match s.caller, s.calls with
  | .ready, .submit task :: calls =>
      match s.dispatcher.submit task with
      | .ok dispatcher =>
          { s with dispatcher, caller := .announcing, past := s.past ++ [.accepted task] }
      | .error _ => { s with calls, past := s.past ++ [.refused task] }
  | .ready, .drain :: calls =>
      if s.dispatcher.isIdle then { s with calls, past := s.past ++ [.drained] }
      else { s with caller := .waiting }
  | .ready, .shutdown :: _ =>
      { s with
        dispatcher := s.dispatcher.stop, caller := .alarming, past := s.past ++ [.stopped] }
  | .announcing, _ :: calls => { s with calls, caller := .ready, worker := s.wake }
  | .alarming, _ :: calls =>
      if s.joined then
        { s with calls, caller := .ready, worker := s.wake, past := s.past ++ [.closed] }
      else { s with caller := .joining, worker := s.wake, joined := true }
  | .joining, _ :: calls =>
      if s.worker = .gone then
        { s with calls, caller := .ready, past := s.past ++ [.closed] }
      else s
  | _, _ => s

/-- The next step of the worker: it ends the task that it is running, or takes the next one. If
there is none, it sleeps, or returns if the dispatcher is stopped. The end of a task wakes a caller
that waits for it. -/
def work (s : Threads α) (crashes : Bool) : Threads α :=
  match s.dispatcher.running with
  | some task =>
      { s with
        dispatcher := s.dispatcher.finish
        caller := if s.caller = .waiting then .ready else s.caller
        past := s.past ++ [.ended task crashes] }
  | none =>
      if s.worker = .awake then
        match s.dispatcher.begin? with
        | some (task, dispatcher) => { s with dispatcher, past := s.past ++ [.started task] }
        | none => { s with worker := if s.dispatcher.stopped then .gone else .asleep }
      else s

/-- The threads after a turn. -/
def turn (s : Threads α) : Turn → Threads α
  | .caller => s.call
  | .worker crashes => s.work crashes

/-- The threads after turns, one after the other. -/
def run (s : Threads α) (turns : List Turn) : Threads α := turns.foldl turn s

/-- A new dispatcher, and the calls that are going to be made of it. -/
def start (calls : List (Call α)) : Threads α := { calls }

/-! ## What a turn can do -/

/-- What a turn does, if it does anything. -/
inductive Step (s : Threads α) : Turn → Threads α → Prop where
  | accept {task : α} {calls : List (Call α)} :
      s.caller = .ready → s.calls = .submit task :: calls → s.dispatcher.stopped = false →
      Step s .caller { s with
        dispatcher := { s.dispatcher with queue := s.dispatcher.queue ++ [task] }
        caller := .announcing
        past := s.past ++ [.accepted task] }
  | refuse {task : α} {calls : List (Call α)} :
      s.caller = .ready → s.calls = .submit task :: calls → s.dispatcher.stopped = true →
      Step s .caller { s with calls, past := s.past ++ [.refused task] }
  | drained {calls : List (Call α)} :
      s.caller = .ready → s.calls = .drain :: calls → s.dispatcher.isIdle = true →
      Step s .caller { s with calls, past := s.past ++ [.drained] }
  | wait {calls : List (Call α)} :
      s.caller = .ready → s.calls = .drain :: calls → s.dispatcher.isIdle = false →
      Step s .caller { s with caller := .waiting }
  | stop {calls : List (Call α)} :
      s.caller = .ready → s.calls = .shutdown :: calls →
      Step s .caller { s with
        dispatcher := s.dispatcher.stop, caller := .alarming, past := s.past ++ [.stopped] }
  | announce {c : Call α} {calls : List (Call α)} :
      s.caller = .announcing → s.calls = c :: calls →
      Step s .caller { s with calls, caller := .ready, worker := s.wake }
  | alarm {c : Call α} {calls : List (Call α)} :
      s.caller = .alarming → s.calls = c :: calls → s.joined = false →
      Step s .caller { s with caller := .joining, worker := s.wake, joined := true }
  /-- Another shutdown has waited for the worker. -/
  | closedBefore {c : Call α} {calls : List (Call α)} :
      s.caller = .alarming → s.calls = c :: calls → s.joined = true →
      Step s .caller
        { s with calls, caller := .ready, worker := s.wake, past := s.past ++ [.closed] }
  | closed {c : Call α} {calls : List (Call α)} :
      s.caller = .joining → s.calls = c :: calls → s.worker = .gone →
      Step s .caller { s with calls, caller := .ready, past := s.past ++ [.closed] }
  | finish {task : α} (crashes : Bool) :
      s.dispatcher.running = some task →
      Step s (.worker crashes) { s with
        dispatcher :=
          { s.dispatcher with running := none, finished := s.dispatcher.finished ++ [task] }
        caller := if s.caller = .waiting then .ready else s.caller
        past := s.past ++ [.ended task crashes] }
  | begin {task : α} {queue : List α} (crashes : Bool) :
      s.dispatcher.running = none → s.worker = .awake → s.dispatcher.queue = task :: queue →
      Step s (.worker crashes) { s with
        dispatcher := { s.dispatcher with queue, running := some task }
        past := s.past ++ [.started task] }
  | sleep (crashes : Bool) :
      s.dispatcher.running = none → s.worker = .awake → s.dispatcher.queue = [] →
      s.dispatcher.stopped = false →
      Step s (.worker crashes) { s with worker := .asleep }
  | leave (crashes : Bool) :
      s.dispatcher.running = none → s.worker = .awake → s.dispatcher.queue = [] →
      s.dispatcher.stopped = true →
      Step s (.worker crashes) { s with worker := .gone }

/-- A step is what its turn does. -/
theorem Step.turn_eq {s s' : Threads α} {t : Turn} (h : Step s t s') : s.turn t = s' := by
  cases h with
  | accept hcaller hcalls hstopped =>
      simp only [turn, call, hcaller, hcalls, Dispatcher.submit, hstopped]
      rfl
  | refuse hcaller hcalls hstopped =>
      simp only [turn, call, hcaller, hcalls, Dispatcher.submit, hstopped]
      rfl
  | drained hcaller hcalls hidle =>
      simp only [turn, call, hcaller, hcalls, hidle, if_true]
  | wait hcaller hcalls hidle =>
      simp only [turn, call, hcaller, hcalls, hidle]
      rfl
  | stop hcaller hcalls => simp only [turn, call, hcaller, hcalls]
  | announce hcaller hcalls => simp only [turn, call, hcaller, hcalls]
  | alarm hcaller hcalls hjoined =>
      simp only [turn, call, hcaller, hcalls, hjoined]
      rfl
  | closedBefore hcaller hcalls hjoined =>
      simp only [turn, call, hcaller, hcalls, hjoined, if_true]
  | closed hcaller hcalls hgone => simp only [turn, call, hcaller, hcalls, hgone, if_true]
  | finish crashes hrunning => simp only [turn, work, hrunning, Dispatcher.finish]
  | begin crashes hrunning hawake hqueue =>
      simp only [turn, work, hrunning, hawake, if_true, begin?, hqueue]
  | sleep crashes hrunning hawake hqueue hstopped =>
      simp only [turn, work, hrunning, hawake, if_true, begin?, hqueue, hstopped]
      rfl
  | leave crashes hrunning hawake hqueue hstopped =>
      simp only [turn, work, hrunning, hawake, if_true, begin?, hqueue, hstopped]

/-- A caller that has a call to make and does not sleep makes a step. -/
theorem exists_step_call {s : Threads α} {c : Call α} {calls : List (Call α)}
    (hcalls : s.calls = c :: calls) (hwaiting : s.caller ≠ .waiting)
    (hjoining : s.caller = .joining → s.worker = .gone) : ∃ s', Step s .caller s' := by
  cases hcaller : s.caller with
  | ready =>
      cases c with
      | submit task =>
          cases hstopped : s.dispatcher.stopped with
          | false => exact ⟨_, .accept hcaller hcalls hstopped⟩
          | true => exact ⟨_, .refuse hcaller hcalls hstopped⟩
      | drain =>
          cases hidle : s.dispatcher.isIdle with
          | false => exact ⟨_, .wait hcaller hcalls hidle⟩
          | true => exact ⟨_, .drained hcaller hcalls hidle⟩
      | shutdown => exact ⟨_, .stop hcaller hcalls⟩
  | announcing => exact ⟨_, .announce hcaller hcalls⟩
  | waiting => exact absurd hcaller hwaiting
  | alarming =>
      cases hjoined : s.joined with
      | false => exact ⟨_, .alarm hcaller hcalls hjoined⟩
      | true => exact ⟨_, .closedBefore hcaller hcalls hjoined⟩
  | joining => exact ⟨_, .closed hcaller hcalls (hjoining hcaller)⟩

/-- A worker that runs a task or is awake makes a step. -/
theorem exists_step_work {s : Threads α} (h : s.dispatcher.running ≠ none ∨ s.worker = .awake)
    (crashes : Bool) : ∃ s', Step s (.worker crashes) s' := by
  cases hrunning : s.dispatcher.running with
  | some task => exact ⟨_, .finish crashes hrunning⟩
  | none =>
      have hawake : s.worker = .awake := h.resolve_left fun hne => hne hrunning
      cases hqueue : s.dispatcher.queue with
      | cons task queue => exact ⟨_, .begin crashes hrunning hawake hqueue⟩
      | nil =>
          cases hstopped : s.dispatcher.stopped with
          | false => exact ⟨_, .sleep crashes hrunning hawake hqueue hstopped⟩
          | true => exact ⟨_, .leave crashes hrunning hawake hqueue hstopped⟩

/-- **A turn makes a step, or does nothing.** -/
theorem turn_cases (s : Threads α) (t : Turn) : s.turn t = s ∨ Step s t (s.turn t) := by
  -- a step that is possible is what the turn does
  have hstep (h : ∃ s', Step s t s') : s.turn t = s ∨ Step s t (s.turn t) := by
    obtain ⟨s', h⟩ := h
    rw [h.turn_eq]
    exact .inr h
  cases t with
  | caller =>
      cases hcalls : s.calls with
      | nil =>
          have hnothing : s.call = s := by
            cases hcaller : s.caller <;> simp only [call, hcaller, hcalls]
          exact .inl hnothing
      | cons c calls =>
          by_cases hwaiting : s.caller = .waiting
          · exact .inl (by simp only [turn, call, hwaiting])
          by_cases hjoining : s.caller = .joining ∧ s.worker ≠ .gone
          · exact .inl (by simp only [turn, call, hjoining.1, hcalls, if_neg hjoining.2])
          refine hstep (exists_step_call hcalls hwaiting fun hcaller => ?_)
          exact Decidable.of_not_not fun hgone => hjoining ⟨hcaller, hgone⟩
  | worker crashes =>
      cases hrunning : s.dispatcher.running with
      | some task => exact hstep (exists_step_work (.inl (by simp [hrunning])) crashes)
      | none =>
          by_cases hawake : s.worker = .awake
          · exact hstep (exists_step_work (.inr hawake) crashes)
          · exact .inl (by simp only [turn, work, hrunning, if_neg hawake])

theorem run_append (s : Threads α) (turns more : List Turn) :
    s.run (turns ++ more) = (s.run turns).run more :=
  List.foldl_append ..

end Threads

/-! ## Idle dispatchers, and draining -/

variable {α : Type}

theorem isIdle_iff {d : Dispatcher α} : d.isIdle = true ↔ d.queue = [] ∧ d.running = none := by
  rw [isIdle, Bool.and_eq_true_iff, List.isEmpty_iff, Option.isNone_iff_eq_none]

/-- Doing something once, and then some more times. -/
theorem repeat_succ {β : Type} (f : β → β) (n : Nat) (b : β) :
    Nat.repeat f (n + 1) b = Nat.repeat f n (f b) := by
  induction n with
  | zero => rfl
  | succ n ih => exact congrArg f ih

/-- A worker that is free runs the queue in order. -/
theorem repeat_runOne (queue finished : List α) (stopped : Bool) :
    Nat.repeat runOne queue.length { queue, finished, stopped }
      = { finished := finished ++ queue, stopped } := by
  induction queue generalizing finished with
  | nil => simp [Nat.repeat]
  | cons task queue ih =>
      have hone : runOne { queue := task :: queue, finished, stopped }
          = { queue, finished := finished ++ [task], stopped } := rfl
      rw [List.length_cons, repeat_succ, hone, ih, List.append_assoc, List.singleton_append]

/-- **Draining finishes what is running, and then the queue in order.** -/
theorem drain_eq (d : Dispatcher α) :
    d.drain = { finished := d.finished ++ d.running.toList ++ d.queue, stopped := d.stopped } := by
  obtain ⟨queue, running, finished, stopped⟩ := d
  cases running with
  | none =>
      show Nat.repeat runOne queue.length { queue, finished, stopped } = _
      rw [repeat_runOne, Option.toList_none, List.append_nil]
  | some task =>
      show Nat.repeat runOne queue.length { queue, finished := finished ++ [task], stopped } = _
      rw [repeat_runOne, Option.toList_some]

end PeerStore.Dispatcher
