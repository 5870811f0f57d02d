import Mathlib.Data.List.Basic
import Mathlib.Data.List.Induction
import PeerStore.Proofs.Dispatcher.Threads

/-!
# Runs of a dispatcher

In a run a thread makes calls of a dispatcher while the worker runs the tasks, their turns in any
order. What is remembered of the past is what the dispatcher shows (`Threads.Recorded`), and where
the threads sleep keeps them from waiting for each other in vain (`Threads.Placed`,
**`Threads.Sound.done_of_still`**). So what happens fits what has happened before
(**`Threads.Sound.fits`**), fair turns come to an end (**`Threads.Sound.done_of_fair`**), and then
the dispatcher is what its calls make of it one after the other
(**`Threads.accepted_tasks_run_in_turn`**).
-/

set_option autoImplicit false

namespace PeerStore.Dispatcher

variable {α : Type}

/-! ## What calls submit -/

/-- The tasks that calls submit before the first shutdown among them. -/
def admitted (calls : List (Call α)) : List α :=
  (calls.takeWhile fun c => !c.isShutdown).filterMap Call.task?

/-- The tasks that calls submit after a shutdown. -/
def rejected (calls : List (Call α)) : List α :=
  (calls.dropWhile fun c => !c.isShutdown).filterMap Call.task?

theorem admitted_concat (calls : List (Call α)) (c : Call α) :
    admitted (calls ++ [c])
      = admitted calls ++ if calls.any Call.isShutdown then [] else c.task?.toList := by
  induction calls with
  | nil => cases c <;> rfl
  | cons b calls ih =>
      cases b with
      | shutdown => rfl
      | drain => exact ih
      | submit task => exact congrArg (task :: ·) ih

theorem rejected_concat (calls : List (Call α)) (c : Call α) :
    rejected (calls ++ [c])
      = rejected calls ++ if calls.any Call.isShutdown then c.task?.toList else [] := by
  induction calls with
  | nil => cases c <;> rfl
  | cons b calls ih =>
      cases b with
      | shutdown =>
          show (calls ++ [c]).filterMap Call.task? = calls.filterMap Call.task? ++ c.task?.toList
          rw [List.filterMap_append]
          cases c <;> rfl
      | drain => exact ih
      | submit task => exact ih

/-- What calls come to without anything in their way. -/
theorem drain_foldl_effect (calls : List (Call α)) :
    (calls.foldl Call.effect {}).drain
      = { finished := admitted calls, stopped := calls.any Call.isShutdown } := by
  induction calls using List.reverseRecOn with
  | nil => rfl
  | append_singleton calls c ih =>
      rw [List.foldl_concat, admitted_concat, List.any_append]
      generalize calls.foldl Call.effect {} = d at ih ⊢
      rw [drain_eq] at ih
      obtain ⟨hfinished, hstopped⟩ : d.finished ++ d.running.toList ++ d.queue = admitted calls
          ∧ d.stopped = calls.any Call.isShutdown := by
        injection ih with _ _ hfinished hstopped
        exact ⟨hfinished, hstopped⟩
      cases c with
      | submit task =>
          rw [← hfinished, ← hstopped]
          cases hd : d.stopped <;>
            simp [Call.effect, Dispatcher.submit, hd, drain_eq, Except.toOption]
      | drain => simp [Call.effect, drain_eq, hfinished, hstopped]
      | shutdown => simp [Call.effect, Dispatcher.shutdown, stop, drain_eq, hfinished]

/-! ## What has happened -/

namespace Event

/-- The task that was accepted. -/
@[simp] def accepted? : Event α → Option α
  | .accepted task => some task
  | _ => none

/-- The task that was refused. -/
@[simp] def refused? : Event α → Option α
  | .refused task => some task
  | _ => none

/-- The task that was started. -/
@[simp] def started? : Event α → Option α
  | .started task => some task
  | _ => none

/-- The task that was ended, crashed or not. -/
@[simp] def ended? : Event α → Option α
  | .ended task _ => some task
  | _ => none

end Event

/-- The tasks accepted, in order. -/
def accepted (past : List (Event α)) : List α := past.filterMap Event.accepted?

/-- The tasks refused, in order. -/
def refused (past : List (Event α)) : List α := past.filterMap Event.refused?

/-- The tasks started, in order. -/
def started (past : List (Event α)) : List α := past.filterMap Event.started?

/-- The tasks ended, crashed or not, in order. -/
def ended (past : List (Event α)) : List α := past.filterMap Event.ended?

section Concat

variable (past : List (Event α)) (e : Event α)

@[simp] theorem accepted_concat :
    accepted (past ++ [e]) = accepted past ++ e.accepted?.toList := by
  rw [accepted, List.filterMap_append]
  cases e <;> rfl

@[simp] theorem refused_concat : refused (past ++ [e]) = refused past ++ e.refused?.toList := by
  rw [refused, List.filterMap_append]
  cases e <;> rfl

@[simp] theorem started_concat : started (past ++ [e]) = started past ++ e.started?.toList := by
  rw [started, List.filterMap_append]
  cases e <;> rfl

@[simp] theorem ended_concat : ended (past ++ [e]) = ended past ++ e.ended?.toList := by
  rw [ended, List.filterMap_append]
  cases e <;> rfl

end Concat

namespace Threads

variable {s s' : Threads α} {t : Turn}

/-- Whether what is remembered is what the dispatcher shows. -/
structure Recorded (s : Threads α) : Prop where
  accepted_eq : accepted s.past
    = s.dispatcher.finished ++ s.dispatcher.running.toList ++ s.dispatcher.queue
  started_eq : started s.past = s.dispatcher.finished ++ s.dispatcher.running.toList
  ended_eq : ended s.past = s.dispatcher.finished
  stopped_iff : s.dispatcher.stopped = true ↔ .stopped ∈ s.past

/-- A step is remembered as the dispatcher shows it. -/
theorem Recorded.step (h : Recorded s) (hstep : Step s t s') : Recorded s' := by
  obtain ⟨haccepted, hstarted, hended, hstopped⟩ := h
  cases hstep with
  | accept =>
      exact ⟨by simp [haccepted], by simpa using hstarted, by simpa using hended,
        by simpa using hstopped⟩
  | refuse | drained | closedBefore | closed =>
      exact ⟨by simpa using haccepted, by simpa using hstarted, by simpa using hended,
        by simpa using hstopped⟩
  | stop =>
      exact ⟨by simpa [Dispatcher.stop] using haccepted, by simpa [Dispatcher.stop] using hstarted,
        by simpa [Dispatcher.stop] using hended, by simp [Dispatcher.stop]⟩
  | finish crashes hrunning =>
      rw [hrunning] at haccepted hstarted
      exact ⟨by simp [haccepted], by simp [hstarted], by simp [hended], by simpa using hstopped⟩
  | begin crashes hrunning _ hqueue =>
      rw [hrunning, hqueue] at haccepted
      rw [hrunning] at hstarted
      exact ⟨by simp [haccepted], by simp [hstarted], by simp [hended], by simpa using hstopped⟩
  | wait | announce | alarm | sleep | leave =>
      exact ⟨haccepted, hstarted, hended, hstopped⟩

/-- Where the threads can be. -/
structure Placed (s : Threads α) : Prop where
  running_eq : s.worker ≠ .awake → s.dispatcher.running = none
  /-- A worker that sleeps has nothing to do, or is going to be woken. -/
  of_asleep : s.worker = .asleep → (s.dispatcher.queue = [] ∨ s.caller = .announcing)
    ∧ (s.dispatcher.stopped = false ∨ s.caller = .alarming)
  of_gone : s.worker = .gone → s.dispatcher.queue = [] ∧ s.dispatcher.stopped = true
  of_waiting : s.caller = .waiting → s.dispatcher.isIdle = false
  of_stopping : s.caller = .alarming ∨ s.caller = .joining → s.dispatcher.stopped = true
  of_joined : s.joined = true → s.caller = .joining ∨ s.worker = .gone
  ready_of_nil : s.calls = [] → s.caller = .ready

/-- Once a shutdown has waited for the worker, it is gone, unless that shutdown still waits. -/
theorem Placed.gone_of_joined (h : Placed s) (hjoined : s.joined = true)
    (hcaller : s.caller ≠ .joining) : s.worker = .gone :=
  (h.of_joined hjoined).resolve_left hcaller

/-- A worker sleeps over an empty queue, unless the caller is on the way to wake it. -/
theorem Placed.queue_eq_nil (h : Placed s) (hasleep : s.worker = .asleep)
    (hcaller : s.caller ≠ .announcing) : s.dispatcher.queue = [] :=
  (h.of_asleep hasleep).1.resolve_right hcaller

/-- A worker does not sleep in a stopped dispatcher, unless the caller is on the way to wake it. -/
theorem Placed.stopped_eq_false (h : Placed s) (hasleep : s.worker = .asleep)
    (hcaller : s.caller ≠ .alarming) : s.dispatcher.stopped = false :=
  (h.of_asleep hasleep).2.resolve_right hcaller

/-- A worker that runs a task is awake. -/
theorem Placed.awake_of_running (h : Placed s) {task : α}
    (hrunning : s.dispatcher.running = some task) : s.worker = .awake := by
  by_contra hne
  rw [h.running_eq hne] at hrunning
  cases hrunning

/-- No step leaves a thread asleep that nobody is going to wake. -/
theorem Placed.step (h : Placed s) (hstep : Step s t s') : Placed s' := by
  -- a worker that is woken sleeps no longer, and it is gone if it was
  have hrunning_wake (hne : s.wake ≠ .awake) : s.dispatcher.running = none :=
    h.running_eq fun hawake => hne (by rw [wake, hawake])
  have hgone_wake : s.wake = .gone ↔ s.worker = .gone := by
    cases hworker : s.worker <;> simp [wake, hworker]
  have hasleep_wake : s.wake ≠ .asleep := by
    cases hworker : s.worker <;> simp [wake, hworker]
  cases hstep with
  | accept hcaller hcalls hopen =>
      exact {
        running_eq := h.running_eq
        of_asleep := fun _ => ⟨.inr rfl, .inl hopen⟩
        of_gone := fun hgone => absurd (h.of_gone hgone).2 (by simp [hopen])
        of_waiting := by simp
        of_stopping := by simp
        of_joined := fun hjoined => .inr (h.gone_of_joined hjoined (by simp [hcaller]))
        ready_of_nil := fun hnil => absurd hnil (by simp [hcalls]) }
  | refuse hcaller | drained hcaller =>
      exact { h with ready_of_nil := fun _ => hcaller }
  | wait hcaller hcalls hidle =>
      exact {
        running_eq := h.running_eq
        of_asleep := fun hasleep => ⟨.inl (h.queue_eq_nil hasleep (by simp [hcaller])),
          .inl (h.stopped_eq_false hasleep (by simp [hcaller]))⟩
        of_gone := h.of_gone
        of_waiting := fun _ => hidle
        of_stopping := by simp
        of_joined := fun hjoined => .inr (h.gone_of_joined hjoined (by simp [hcaller]))
        ready_of_nil := fun hnil => absurd hnil (by simp [hcalls]) }
  | stop hcaller hcalls =>
      exact {
        running_eq := h.running_eq
        of_asleep := fun hasleep =>
          ⟨.inl (h.queue_eq_nil hasleep (by simp [hcaller])), .inr rfl⟩
        of_gone := fun hgone => ⟨(h.of_gone hgone).1, rfl⟩
        of_waiting := by simp
        of_stopping := fun _ => rfl
        of_joined := fun hjoined => .inr (h.gone_of_joined hjoined (by simp [hcaller]))
        ready_of_nil := fun hnil => absurd hnil (by simp [hcalls]) }
  | announce hcaller | closedBefore hcaller =>
      exact {
        running_eq := hrunning_wake
        of_asleep := fun hasleep => absurd hasleep hasleep_wake
        of_gone := fun hgone => h.of_gone (hgone_wake.mp hgone)
        of_waiting := by simp
        of_stopping := by simp
        of_joined := fun hjoined =>
          .inr (hgone_wake.mpr (h.gone_of_joined hjoined (by simp [hcaller])))
        ready_of_nil := fun _ => rfl }
  | alarm hcaller hcalls =>
      exact {
        running_eq := hrunning_wake
        of_asleep := fun hasleep => absurd hasleep hasleep_wake
        of_gone := fun hgone => h.of_gone (hgone_wake.mp hgone)
        of_waiting := by simp
        of_stopping := fun _ => h.of_stopping (.inl hcaller)
        of_joined := fun _ => .inl rfl
        ready_of_nil := fun hnil => absurd hnil (by simp [hcalls]) }
  | closed _ _ hgone =>
      exact {
        running_eq := h.running_eq
        of_asleep := fun hasleep => absurd hasleep (by simp [hgone])
        of_gone := h.of_gone
        of_waiting := by simp
        of_stopping := by simp
        of_joined := fun _ => .inr hgone
        ready_of_nil := fun _ => rfl }
  | finish crashes hrunning =>
      have hawake : s.worker = .awake := h.awake_of_running hrunning
      exact {
        running_eq := fun _ => rfl
        of_asleep := fun hasleep => absurd hasleep (by simp [hawake])
        of_gone := fun hgone => absurd hgone (by simp [hawake])
        of_waiting := fun hwaiting => by split at hwaiting <;> contradiction
        of_stopping := fun hstopping => by
          split at hstopping
          · simp at hstopping
          · exact h.of_stopping hstopping
        of_joined := fun hjoined => by
          rcases h.of_joined hjoined with hjoining | hgone
          · exact .inl (by simp [hjoining])
          · simp [hawake] at hgone
        ready_of_nil := fun hnil => by simp [h.ready_of_nil hnil] }
  | begin crashes _ hawake =>
      exact { h with
        running_eq := fun hne => absurd hawake hne
        of_asleep := fun hasleep => absurd hasleep (by simp [hawake])
        of_gone := fun hgone => absurd hgone (by simp [hawake])
        of_waiting := fun _ => by simp [isIdle] }
  | sleep crashes hrunning hawake hqueue hopen =>
      exact { h with
        running_eq := fun _ => hrunning
        of_asleep := fun _ => ⟨.inl hqueue, .inl hopen⟩
        of_gone := by simp
        of_joined := fun hjoined => .inl ((h.of_joined hjoined).resolve_right (by simp [hawake])) }
  | leave crashes hrunning _ hqueue hstopped =>
      exact { h with
        running_eq := fun _ => hrunning
        of_asleep := by simp
        of_gone := fun _ => ⟨hqueue, hstopped⟩
        of_joined := fun _ => .inr rfl }

/-! ## Calls that have had their effect -/

/-- The calls that have not had their effect yet. -/
def left (s : Threads α) : List (Call α) :=
  match s.caller with
  | .ready | .waiting => s.calls
  | .announcing | .alarming | .joining => s.calls.tail

/-- Whether the calls made are those that have had their effect. -/
structure Made (made : List (Call α)) (s : Threads α) : Prop where
  accepted_eq : accepted s.past = admitted made
  refused_eq : refused s.past = rejected made
  stopped_eq : s.dispatcher.stopped = made.any Call.isShutdown

/-- A call has its effect when something is remembered: a task that is submitted is accepted or
refused, as the dispatcher is. -/
theorem Made.called {made : List (Call α)} {c : Call α} {e : Event α} (h : Made made s)
    (hpast : s'.past = s.past ++ [e])
    (haccepted : e.accepted? = if s.dispatcher.stopped then none else c.task?)
    (hrefused : e.refused? = if s.dispatcher.stopped then c.task? else none)
    (hstopped : s'.dispatcher.stopped = (s.dispatcher.stopped || c.isShutdown)) :
    Made (made ++ [c]) s' := by
  refine ⟨?_, ?_, ?_⟩
  · rw [hpast, accepted_concat, admitted_concat, h.accepted_eq, haccepted, ← h.stopped_eq]
    cases s.dispatcher.stopped <;> rfl
  · rw [hpast, refused_concat, rejected_concat, h.refused_eq, hrefused, ← h.stopped_eq]
    cases s.dispatcher.stopped <;> rfl
  · simp [hstopped, h.stopped_eq]

/-- What is remembered of a call that has had its effect, or of the worker, is no effect. -/
theorem Made.told {made : List (Call α)} {e : Event α} (h : Made made s)
    (hpast : s'.past = s.past ++ [e]) (haccepted : e.accepted? = none)
    (hrefused : e.refused? = none) (hstopped : s'.dispatcher.stopped = s.dispatcher.stopped) :
    Made made s' := by
  refine ⟨?_, ?_, hstopped.trans h.stopped_eq⟩
  · rw [hpast, accepted_concat, haccepted, Option.toList_none, List.append_nil, h.accepted_eq]
  · rw [hpast, refused_concat, hrefused, Option.toList_none, List.append_nil, h.refused_eq]

/-- A step makes the next call have its effect, or it has to do with none. -/
theorem Made.step {made : List (Call α)} (h : Made made s) (hstep : Step s t s') :
    (s'.left = s.left ∧ Made made s') ∨ ∃ c, s.left = c :: s'.left ∧ Made (made ++ [c]) s' := by
  cases hstep with
  | @accept task calls hcaller hcalls hopen =>
      refine .inr ⟨.submit task, by simp [left, hcaller, hcalls], h.called rfl ?_ ?_ ?_⟩
      all_goals simp [hopen]
  | @refuse task calls hcaller hcalls hclosed =>
      refine .inr ⟨.submit task, by simp [left, hcaller, hcalls], h.called rfl ?_ ?_ ?_⟩
      all_goals simp [hclosed]
  | drained hcaller hcalls =>
      refine .inr ⟨.drain, by simp [left, hcaller, hcalls], h.called rfl ?_ ?_ ?_⟩
      all_goals simp
  | stop hcaller hcalls =>
      refine .inr ⟨.shutdown, by simp [left, hcaller, hcalls], h.called rfl ?_ ?_ ?_⟩
      all_goals simp [Dispatcher.stop]
  | wait hcaller => exact .inl ⟨by simp [left, hcaller], h.accepted_eq, h.refused_eq, h.stopped_eq⟩
  | announce hcaller hcalls | alarm hcaller hcalls =>
      exact .inl ⟨by simp [left, hcaller, hcalls], h.accepted_eq, h.refused_eq, h.stopped_eq⟩
  | closedBefore hcaller hcalls | closed hcaller hcalls =>
      exact .inl ⟨by simp [left, hcaller, hcalls], h.told rfl rfl rfl rfl⟩
  | finish =>
      refine .inl ⟨?_, h.told rfl rfl rfl rfl⟩
      cases hcaller : s.caller <;> simp [left, hcaller]
  | begin => exact .inl ⟨rfl, h.told rfl rfl rfl rfl⟩
  | sleep | leave => exact .inl ⟨rfl, h.accepted_eq, h.refused_eq, h.stopped_eq⟩

/-! ## All turns -/

/-- What is true after any turns. -/
structure Sound (calls : List (Call α)) (s : Threads α) : Prop where
  recorded : Recorded s
  placed : Placed s
  made : ∃ made, calls = made ++ s.left ∧ Made made s

variable {calls : List (Call α)}

theorem sound_start (calls : List (Call α)) : Sound calls (start calls) where
  recorded := ⟨rfl, rfl, rfl, by simp [start]⟩
  placed := by constructor <;> simp [start]
  made := ⟨[], rfl, rfl, rfl, rfl⟩

theorem Sound.turn (h : Sound calls s) (t : Turn) : Sound calls (s.turn t) := by
  rcases turn_cases s t with hsame | hstep
  · rw [hsame]
    exact h
  · obtain ⟨made, hcalls, hmade⟩ := h.made
    refine ⟨h.recorded.step hstep, h.placed.step hstep, ?_⟩
    rcases hmade.step hstep with ⟨hleft, hmade'⟩ | ⟨c, hleft, hmade'⟩
    · exact ⟨made, by rw [hleft, ← hcalls], hmade'⟩
    · exact ⟨made ++ [c], by rw [hcalls, hleft, List.append_cons], hmade'⟩

theorem Sound.run (h : Sound calls s) (turns : List Turn) : Sound calls (s.run turns) := by
  induction turns generalizing s with
  | nil => exact h
  | cons t turns ih => exact ih (h.turn t)

/-! ## What happens fits what has happened -/

/-- What is true when something happens. A task is accepted only before a shutdown is called, and
refused only afterwards. A drain or a shutdown returns only when the dispatcher is idle and all
tasks accepted have ended. A task is started only when all tasks started have ended, and it is the
first of the accepted ones that has not been; the task that ends is the one that was started
last. -/
def Fits (s : Threads α) : Event α → Prop
  | .accepted _ => .stopped ∉ s.past
  | .refused _ => .stopped ∈ s.past
  | .stopped => True
  | .drained | .closed => s.dispatcher.isIdle = true ∧ ended s.past = accepted s.past
  | .started task => ended s.past = started s.past ∧ started s.past ++ [task] <+: accepted s.past
  | .ended task _ => started s.past = ended s.past ++ [task]

/-- In an idle dispatcher all tasks accepted have ended. -/
theorem Recorded.ended_of_isIdle (h : Recorded s) (hidle : s.dispatcher.isIdle = true) :
    ended s.past = accepted s.past := by
  obtain ⟨hqueue, hrunning⟩ := isIdle_iff.mp hidle
  rw [h.ended_eq, h.accepted_eq, hqueue, hrunning, Option.toList_none, List.append_nil,
    List.append_nil]

/-- **A turn remembers at most one event, and one that fits.** -/
theorem Sound.fits (h : Sound calls s) (t : Turn) :
    (s.turn t).past = s.past ∨ ∃ e, (s.turn t).past = s.past ++ [e] ∧ s.Fits e := by
  have hrec := h.recorded
  have hgone_idle : s.worker = .gone → s.dispatcher.isIdle = true := by
    intro hgone
    have hrunning : s.dispatcher.running = none := h.placed.running_eq (by simp [hgone])
    exact isIdle_iff.mpr ⟨(h.placed.of_gone hgone).1, hrunning⟩
  rcases turn_cases s t with hsame | hstep
  · exact .inl (congrArg past hsame)
  generalize s.turn t = s' at hstep
  cases hstep with
  | accept hcaller hcalls hopen =>
      refine .inr ⟨_, rfl, fun hstopped => ?_⟩
      rw [← hrec.stopped_iff, hopen] at hstopped
      exact Bool.false_ne_true hstopped
  | refuse hcaller hcalls hclosed => exact .inr ⟨_, rfl, hrec.stopped_iff.mp hclosed⟩
  | stop => exact .inr ⟨_, rfl, trivial⟩
  | drained hcaller hcalls hidle => exact .inr ⟨_, rfl, hidle, hrec.ended_of_isIdle hidle⟩
  | closedBefore hcaller hcalls hjoined =>
      -- the shutdown that waited for the worker has returned
      have hgone : s.worker = .gone := h.placed.gone_of_joined hjoined (by simp [hcaller])
      exact .inr ⟨_, rfl, hgone_idle hgone, hrec.ended_of_isIdle (hgone_idle hgone)⟩
  | closed hcaller hcalls hgone =>
      exact .inr ⟨_, rfl, hgone_idle hgone, hrec.ended_of_isIdle (hgone_idle hgone)⟩
  | finish crashes hrunning =>
      refine .inr ⟨_, rfl, ?_⟩
      show started s.past = ended s.past ++ _
      rw [hrec.started_eq, hrec.ended_eq, hrunning, Option.toList_some]
  | @begin task queue crashes hrunning hawake hqueue =>
      refine .inr ⟨_, rfl, ?_, queue, ?_⟩
      · rw [hrec.started_eq, hrec.ended_eq, hrunning, Option.toList_none, List.append_nil]
      · rw [hrec.started_eq, hrec.accepted_eq, hqueue, List.append_assoc, List.singleton_append]
  | wait | announce | alarm | sleep | leave => exact .inl rfl

/-! ## Fair runs come to an end -/

/-- Whether all calls have returned and no task is left. -/
def Done (s : Threads α) : Prop := s.calls = [] ∧ s.dispatcher.isIdle = true

end Threads

/-- A bound on the steps that calls lead to. -/
def Call.efforts : List (Call α) → Nat
  | [] => 0
  | .submit _ :: calls => efforts calls + 6
  | .drain :: calls => efforts calls + 2
  | .shutdown :: calls => efforts calls + 4

namespace Threads

/-- A bound on the steps that are left. A task in the queue makes up to three of them: it is taken,
it ends, and the caller looks again or the worker goes to sleep. -/
def effort (s : Threads α) : Nat :=
  (match s.caller with
    | .ready => Call.efforts s.calls
    | .announcing => Call.efforts s.calls.tail + 2
    | .waiting => Call.efforts s.calls - 1
    | .alarming => Call.efforts s.calls.tail + 3
    | .joining => Call.efforts s.calls.tail + 1)
  + 3 * s.dispatcher.depth + 2 * s.dispatcher.running.toList.length
  + if s.worker = .awake then 1 else 0

variable {s s' : Threads α} {t : Turn} {calls : List (Call α)}

/-- **Every step leaves fewer steps.** -/
theorem Step.effort_lt (h : Step s t s') : s'.effort < s.effort := by
  have hwake : (if s.wake = .awake then 1 else 0) ≤ (if s.worker = .awake then 1 else 0) + 1 := by
    split <;> omega
  cases h with
  | accept hcaller hcalls =>
      simp only [effort, hcaller, hcalls, Call.efforts, depth, List.tail_cons, List.length_append,
        List.length_singleton]
      omega
  | refuse hcaller hcalls | drained hcaller hcalls | wait hcaller hcalls | closed hcaller hcalls =>
      simp only [effort, hcaller, hcalls, Call.efforts, List.tail_cons]
      omega
  | stop hcaller hcalls =>
      simp only [effort, hcaller, hcalls, Call.efforts, depth, Dispatcher.stop, List.tail_cons]
      omega
  | announce hcaller hcalls | alarm hcaller hcalls | closedBefore hcaller hcalls =>
      -- the worker that is woken goes to sleep or returns once more
      simp only [effort, hcaller, hcalls, List.tail_cons]
      omega
  | finish crashes hrunning =>
      -- a caller that waits is woken, and looks once more
      by_cases hwaiting : s.caller = .waiting
      · simp only [effort, hwaiting, if_true, depth, hrunning, Option.toList_none,
          Option.toList_some, List.length_singleton, List.length_nil]
        omega
      · simp only [effort, if_neg hwaiting, depth, hrunning, Option.toList_none,
          Option.toList_some, List.length_singleton, List.length_nil]
        omega
  | begin crashes hrunning hawake hqueue =>
      simp only [effort, depth, hrunning, hqueue, List.length_cons, Option.toList_none,
        Option.toList_some, List.length_nil]
      omega
  | sleep crashes hrunning hawake hqueue | leave crashes hrunning hawake hqueue =>
      simp [effort, hawake]

/-- **The threads do not wait for each other in vain.** If neither can make a step, all is done: a
worker that sleeps or is gone has left nothing in the queue, so that no caller waits for it. -/
theorem Sound.done_of_still (h : Sound calls s) (crashes : Bool)
    (hcall : ∀ s', ¬ Step s .caller s') (hwork : ∀ s', ¬ Step s (.worker crashes) s') :
    s.Done := by
  obtain ⟨-, hplaced, -⟩ := h
  have hstill : ¬ (s.dispatcher.running ≠ none ∨ s.worker = .awake) := by
    intro hbusy
    obtain ⟨s', hstep⟩ := exists_step_work hbusy crashes
    exact hwork s' hstep
  rw [not_or, ne_eq, not_not] at hstill
  obtain ⟨hrunning, hawake⟩ := hstill
  -- nobody is on the way to wake the worker, so that it sleeps over an empty queue
  have hcaller : ∀ c cs, s.calls = c :: cs → s.caller = .waiting
      ∨ (s.caller = .joining ∧ s.worker ≠ .gone) := by
    intro c cs hcalls
    by_contra hother
    rw [not_or, not_and, not_not] at hother
    obtain ⟨s', hstep⟩ := exists_step_call hcalls hother.1 hother.2
    exact hcall s' hstep
  have hplace : s.caller = .ready ∨ s.caller = .waiting ∨ s.caller = .joining := by
    cases hcalls : s.calls with
    | nil => exact .inl (hplaced.ready_of_nil hcalls)
    | cons c cs => exact .inr ((hcaller c cs hcalls).imp_right And.left)
  have hqueue : s.dispatcher.queue = [] := by
    cases hworker : s.worker with
    | awake => exact absurd hworker hawake
    | gone => exact (hplaced.of_gone hworker).1
    | asleep =>
        refine hplaced.queue_eq_nil hworker fun hannouncing => ?_
        rw [hannouncing] at hplace
        simp at hplace
  have hidle : s.dispatcher.isIdle = true := isIdle_iff.mpr ⟨hqueue, hrunning⟩
  refine ⟨?_, hidle⟩
  cases hcalls : s.calls with
  | nil => rfl
  | cons c cs =>
      rcases hcaller c cs hcalls with hwaiting | ⟨hjoining, hgone⟩
      · -- a caller that waits is owed the end of a task
        rw [hplaced.of_waiting hwaiting] at hidle
        cases hidle
      · -- a caller that waits for the worker has stopped it before, and has woken it
        have hasleep : s.worker = .asleep := by
          cases hworker : s.worker with
          | awake => exact absurd hworker hawake
          | asleep => rfl
          | gone => exact absurd hworker hgone
        have hopen := hplaced.stopped_eq_false hasleep (by simp [hjoining])
        rw [hplaced.of_stopping (.inr hjoining)] at hopen
        cases hopen

theorem Done.turn (h : s.Done) (t : Turn) : (s.turn t).Done := by
  obtain ⟨hcalls, hidle⟩ := h
  obtain ⟨hqueue, hrunning⟩ := isIdle_iff.mp hidle
  rcases turn_cases s t with hsame | hstep
  · rw [hsame]
    exact ⟨hcalls, hidle⟩
  generalize s.turn t = s' at hstep
  cases hstep with
  | sleep | leave => exact ⟨hcalls, hidle⟩
  | finish crashes hsome => simp [hrunning] at hsome
  | begin crashes _ _ hcons => simp [hqueue] at hcons
  | accept _ hcons | refuse _ hcons | drained _ hcons | wait _ hcons | stop _ hcons
  | announce _ hcons | alarm _ hcons | closedBefore _ hcons | closed _ hcons =>
      simp [hcalls] at hcons

theorem Done.run (h : s.Done) (turns : List Turn) : (s.run turns).Done := by
  induction turns generalizing s with
  | nil => exact h
  | cons t turns ih => exact ih (h.turn t)

/-- Turns leave no more steps than there were, and fewer if one of them can make a step at once. -/
theorem effort_run (s : Threads α) (turns : List Turn) :
    (s.run turns).effort ≤ s.effort
      ∧ ∀ t ∈ turns, ∀ s', Step s t s' → (s.run turns).effort < s.effort := by
  induction turns generalizing s with
  | nil => exact ⟨Nat.le_refl _, fun t ht => absurd ht List.not_mem_nil⟩
  | cons t turns ih =>
      obtain ⟨hle, hlt⟩ := ih (s.turn t)
      show ((s.turn t).run turns).effort ≤ s.effort ∧ _
      rcases turn_cases s t with hsame | hstep
      · rw [hsame] at hle hlt
        rw [show s.run (t :: turns) = (s.turn t).run turns from rfl, hsame]
        refine ⟨hle, fun t' ht' s' hstep' => ?_⟩
        rcases List.mem_cons.mp ht' with rfl | ht'
        · -- a turn that does nothing cannot make a step
          have hsmaller := hstep'.effort_lt
          rw [← hstep'.turn_eq, hsame] at hsmaller
          exact absurd hsmaller (Nat.lt_irrefl _)
        · exact hlt t' ht' s' hstep'
      · have hless := Nat.lt_of_le_of_lt hle hstep.effort_lt
        exact ⟨Nat.le_of_lt hless, fun _ _ _ _ => hless⟩

/-- Whether both threads have a turn in each of some rounds. -/
def Fair (rounds : List (List Turn)) : Prop :=
  ∀ round ∈ rounds, .caller ∈ round ∧ ∃ crashes, .worker crashes ∈ round

/-- **Fair turns come to an end.** -/
theorem Sound.done_of_fair (h : Sound calls s) {rounds : List (List Turn)} (hfair : Fair rounds)
    (hmany : s.effort < rounds.length) : (s.run rounds.flatten).Done := by
  induction rounds generalizing s with
  | nil => exact absurd hmany (Nat.not_lt_zero _)
  | cons round rounds ih =>
      obtain ⟨⟨hcaller, crashes, hworker⟩, hfair⟩ := List.forall_mem_cons.mp hfair
      rw [List.flatten_cons, run_append]
      by_cases hdone : s.Done
      · exact (hdone.run round).run _
      -- one of the threads can make a step, and both have their turn
      have hless : (s.run round).effort < s.effort := by
        by_contra hnot
        refine hdone (h.done_of_still crashes (fun s' hstep => ?_) fun s' hstep => ?_)
        · exact hnot ((effort_run s round).2 _ hcaller s' hstep)
        · exact hnot ((effort_run s round).2 _ hworker s' hstep)
      rw [List.length_cons] at hmany
      exact ih (h.run round) hfair (by omega)

/-! ## Tasks in turn -/

/-- **Once drained, the dispatcher is what the calls that have had their effect make of it one after
the other.** -/
theorem Made.drain_eq {made : List (Call α)} (h : Made made s) (hrec : Recorded s) :
    s.dispatcher.drain = (made.foldl Call.effect {}).drain := by
  rw [drain_foldl_effect, Dispatcher.drain_eq, ← hrec.accepted_eq, h.accepted_eq, h.stopped_eq]

theorem drain_of_isIdle {d : Dispatcher α} (h : d.isIdle = true) : d.drain = d := by
  obtain ⟨hqueue, hrunning⟩ := isIdle_iff.mp h
  obtain ⟨queue, running, finished, stopped⟩ := d
  subst hqueue hrunning
  rw [Dispatcher.drain_eq]
  simp

/-- **Accepted tasks run in turn.** After any turns, whatever happens next fits what has happened.
The tasks started are the first of those accepted, in their order. Every task accepted waits, runs
or has been delivered, and those delivered are those that have ended, crashed or not. Accepted are
the tasks that have been submitted before the first shutdown, refused those submitted after it, and
once drained the dispatcher is what its calls make of it one after the other. When both threads have
had turns enough, all calls have returned, and exactly the accepted tasks have been started and have
ended, each once. -/
theorem accepted_tasks_run_in_turn (calls : List (Call α)) (turns : List Turn) :
    let s := (start calls).run turns
    (∀ t, (s.turn t).past = s.past ∨ ∃ e, (s.turn t).past = s.past ++ [e] ∧ s.Fits e)
      ∧ started s.past <+: accepted s.past
      ∧ s.dispatcher.depth + s.dispatcher.running.toList.length + s.dispatcher.delivered
        = (accepted s.past).length
      ∧ s.dispatcher.delivered = (ended s.past).length
      ∧ (∃ made, calls = made ++ s.left
          ∧ accepted s.past = admitted made ∧ refused s.past = rejected made
          ∧ s.dispatcher.drain = (made.foldl Call.effect {}).drain)
      ∧ ∀ rounds, Fair rounds → s.effort < rounds.length →
          let s' := s.run rounds.flatten
          s'.calls = [] ∧ s'.dispatcher = (calls.foldl Call.effect {}).drain
            ∧ started s'.past = admitted calls ∧ ended s'.past = admitted calls
            ∧ refused s'.past = rejected calls := by
  intro s
  have hsound : Sound calls s := (sound_start calls).run turns
  have hrec := hsound.recorded
  obtain ⟨made, hcalls, hmade⟩ := hsound.made
  refine ⟨hsound.fits, ?_, ?_, ?_, ⟨made, hcalls, hmade.accepted_eq, hmade.refused_eq,
    hmade.drain_eq hrec⟩, fun rounds hfair hmany => ?_⟩
  · rw [hrec.started_eq, hrec.accepted_eq]
    exact List.prefix_append _ _
  · rw [hrec.accepted_eq, List.length_append, List.length_append, depth, delivered]
    omega
  · rw [hrec.ended_eq, delivered]
  · intro s'
    have hdone : s'.Done := hsound.done_of_fair hfair hmany
    have hsound' : Sound calls s' := hsound.run rounds.flatten
    have hended : ended s'.past = accepted s'.past := hsound'.recorded.ended_of_isIdle hdone.2
    obtain ⟨made', hcalls', hmade'⟩ := hsound'.made
    -- no call is left, so that all have had their effect
    have hleft : s'.left = [] := by
      have hready : s'.caller = .ready := hsound'.placed.ready_of_nil hdone.1
      rw [left, hready]
      exact hdone.1
    obtain rfl : calls = made' := by rw [hcalls', hleft, List.append_nil]
    have hdrain := hmade'.drain_eq hsound'.recorded
    rw [drain_of_isIdle hdone.2] at hdrain
    have hstarted : started s'.past = accepted s'.past := by
      have hrunning : s'.dispatcher.running = none := (isIdle_iff.mp hdone.2).2
      rw [← hended, hsound'.recorded.started_eq, hsound'.recorded.ended_eq, hrunning,
        Option.toList_none, List.append_nil]
    refine ⟨hdone.1, hdrain, ?_, ?_, hmade'.refused_eq⟩
    · rw [hstarted, hmade'.accepted_eq]
    · rw [hended, hmade'.accepted_eq]

/-- The worker sleeps when the first task comes. That task crashes while a drain waits for two, and
wakes it too early. Another drain, two shutdowns and a task that is refused are still to come; every
task crashes. -/
theorem accepted_tasks_run_in_turn_across_crashes :
    let calls : List (Call Nat) :=
      [.submit 1, .submit 2, .drain, .submit 3, .shutdown, .submit 4, .drain, .shutdown]
    let turns : List Turn :=
      [.worker true, .caller, .worker true, .caller, .caller, .worker true, .caller, .caller,
        .worker true, .caller]
    let rounds : List (List Turn) := List.replicate 28 [.worker true, .caller]
    let s := (start calls).run turns
    s.caller = .waiting ∧ s.past = [.accepted 1, .accepted 2, .started 1, .ended 1 true]
      ∧ s.dispatcher.delivered = 1
      ∧ (s.run rounds.flatten).calls = []
      ∧ ended (s.run rounds.flatten).past = [1, 2, 3]
      ∧ refused (s.run rounds.flatten).past = [4] := by
  intro calls turns rounds s
  obtain ⟨-, -, -, hdelivered, -, hend⟩ := accepted_tasks_run_in_turn calls turns
  have hfair : Fair rounds := by
    intro round hround
    rw [List.eq_of_mem_replicate hround]
    exact ⟨by decide, true, by decide⟩
  have hmany : s.effort < rounds.length := by decide
  obtain ⟨hcalls, -, -, hended, hrefused⟩ := hend rounds hfair hmany
  have hadmitted : admitted calls = [1, 2, 3] := by decide
  have hrejected : rejected calls = [4] := by decide
  have hcrashed : (ended s.past).length = 1 := by decide
  exact ⟨by decide, by decide, hdelivered.trans hcrashed, hcalls, hended.trans hadmitted,
    hrefused.trans hrejected⟩

end Threads

end PeerStore.Dispatcher
