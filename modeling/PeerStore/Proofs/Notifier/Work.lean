import Mathlib.Logic.Function.Iterate
import PeerStore.Notifier
import PeerStore.Proofs.Dispatcher.Threads

/-!
# The worker of a notifier, step by step

While a notice goes from observer to observer, other things can happen to the notifier. `AtWork` is
a notifier whose worker may be in the middle of a delivery, and `AtWork.work` is its next step. When
nothing else happens, these steps come to whole deliveries: a notifier that delivers its next
notice, or all that are queued, has made some number of them (`exists_steps_deliverNext`,
**`exists_steps_flush`**). From wherever it is, the worker comes to rest (`exists_idle`).
-/

set_option autoImplicit false

namespace PeerStore.Notifier

/-- A notifier whose worker may be in the middle of a delivery. -/
structure AtWork extends Notifier where
  /-- The observers that the delivery in progress has still to call. -/
  left : List String := []

namespace AtWork

/-- The next step of the worker: it takes a delivery from the queue, or calls the next observer of
the one in progress, or finishes it. After an observer that crashes nobody is left to be called. -/
def work (w : AtWork) : AtWork :=
  match w.dispatcher.running with
  | none =>
      match w.dispatcher.begin? with
      | none => w
      | some (d, dispatcher) => { w with dispatcher, left := d.targets }
  | some d =>
      match w.left with
      | [] => { w with dispatcher := w.dispatcher.finish }
      | o :: os =>
          { w with
            seen := w.seen ++ [(o, d.notice)]
            left := if w.crashes w.seen.length o then [] else os }

/-- Whether the worker gets from one state to another when nothing else happens. -/
def Steps (w w' : AtWork) : Prop := ∃ k, work^[k] w = w'

theorem Steps.refl (w : AtWork) : w.Steps w := ⟨0, rfl⟩

/-- A step in front of others. -/
theorem Steps.head {w w' : AtWork} (h : w.work.Steps w') : w.Steps w' := by
  obtain ⟨k, hk⟩ := h
  exact ⟨k + 1, hk⟩

theorem Steps.trans {w w' w'' : AtWork} (h : w.Steps w') (h' : w'.Steps w'') : w.Steps w'' := by
  obtain ⟨k, rfl⟩ := h
  obtain ⟨k', rfl⟩ := h'
  exact ⟨k' + k, Function.iterate_add_apply work k' k w⟩

/-! ## What one step does -/

variable {w : AtWork} {d : Delivery}

/-- A worker without anything to do stays as it is. -/
theorem work_of_idle (hrunning : w.dispatcher.running = none) (hqueue : w.dispatcher.queue = []) :
    w.work = w := by
  simp only [work, hrunning, Dispatcher.begin?, hqueue]

/-- A worker that is free takes the next delivery. -/
theorem work_of_queued {ds : List Delivery} (hrunning : w.dispatcher.running = none)
    (hqueue : w.dispatcher.queue = d :: ds) :
    w.work = { w with
      dispatcher := { w.dispatcher with queue := ds, running := some d }, left := d.targets } := by
  simp only [work, hrunning, Dispatcher.begin?, hqueue]

/-- A worker whose delivery has nobody left to call finishes it. -/
theorem work_of_called (hrunning : w.dispatcher.running = some d) (hleft : w.left = []) :
    w.work = { w with
      dispatcher :=
        { w.dispatcher with running := none, finished := w.dispatcher.finished ++ [d] } } := by
  simp only [work, hrunning, hleft, Dispatcher.finish]

/-- A worker in the middle of a delivery calls the next observer. -/
theorem work_of_left {o : String} {os : List String} (hrunning : w.dispatcher.running = some d)
    (hleft : w.left = o :: os) :
    w.work = { w with
      seen := w.seen ++ [(o, d.notice)]
      left := if w.crashes w.seen.length o then [] else os } := by
  simp only [work, hrunning, hleft]

/-! ## Whole deliveries -/

/-- The worker calls who is left and finishes the delivery. -/
theorem steps_finish (hrunning : w.dispatcher.running = some d) :
    w.Steps { w with
      seen := callAll w.crashes d.notice w.left w.seen
      left := []
      dispatcher := w.dispatcher.finish } := by
  have hfinish {w : AtWork} (hrunning : w.dispatcher.running = some d) (hleft : w.left = []) :
      w.Steps { w with left := [], dispatcher := w.dispatcher.finish } := by
    refine Steps.head ?_
    rw [work_of_called hrunning hleft, ← hleft, Dispatcher.finish, hrunning]
    exact Steps.refl _
  generalize hleft : w.left = os
  induction os generalizing w with
  | nil =>
      rw [callAll]
      exact hfinish hrunning hleft
  | cons o os ih =>
      refine Steps.head ?_
      rw [work_of_left hrunning hleft, callAll]
      split
      · exact hfinish (w := { w with seen := w.seen ++ [(o, d.notice)], left := [] }) hrunning rfl
      · exact ih (w := { w with seen := w.seen ++ [(o, d.notice)], left := os }) hrunning rfl

/-- **A notifier that delivers its next notice has let its worker make some steps.** -/
theorem exists_steps_deliverNext (hrunning : w.dispatcher.running = none) :
    ∃ w', w.Steps w' ∧ w'.toNotifier = w.toNotifier.deliverNext := by
  cases hqueue : w.dispatcher.queue with
  | nil =>
      refine ⟨w, Steps.refl w, ?_⟩
      simp only [deliverNext, Dispatcher.begin?, hrunning, hqueue]
  | cons d ds =>
      have hsteps : w.Steps _ := Steps.head (steps_finish (w := w.work) (d := d) (by
        rw [work_of_queued hrunning hqueue]))
      refine ⟨_, hsteps, ?_⟩
      rw [work_of_queued hrunning hqueue]
      simp only [deliverNext, Dispatcher.begin?, hrunning, hqueue]

end AtWork

/-! ## Flushing -/

variable {n : Notifier}

theorem running_deliverNext (h : n.dispatcher.running = none) :
    n.deliverNext.dispatcher.running = none := by
  cases hqueue : n.dispatcher.queue <;>
    simp [deliverNext, Dispatcher.begin?, Dispatcher.finish, h, hqueue]

theorem queue_deliverNext (h : n.dispatcher.running = none) :
    n.deliverNext.dispatcher.queue = n.dispatcher.queue.tail := by
  cases hqueue : n.dispatcher.queue <;>
    simp [deliverNext, Dispatcher.begin?, Dispatcher.finish, h, hqueue]

theorem flush_of_queue_eq_nil (h : n.dispatcher.queue = []) : n.flush = n := by
  rw [flush, Dispatcher.depth, h]
  rfl

theorem flush_deliverNext (hrunning : n.dispatcher.running = none)
    (hqueue : n.dispatcher.queue ≠ []) : n.deliverNext.flush = n.flush := by
  obtain ⟨d, ds, hcons⟩ := List.exists_cons_of_ne_nil hqueue
  have htail : n.deliverNext.dispatcher.queue = ds := by
    rw [queue_deliverNext hrunning, hcons, List.tail_cons]
  rw [flush, flush, Dispatcher.depth, Dispatcher.depth, htail, hcons, List.length_cons,
    Dispatcher.repeat_succ]

/-- **A notifier that delivers every queued notice has let its worker work until it came to
rest.** -/
theorem AtWork.exists_steps_flush {w : AtWork} (hrunning : w.dispatcher.running = none) :
    ∃ w', w.Steps w' ∧ w'.toNotifier = w.toNotifier.flush ∧ w'.dispatcher.isIdle = true := by
  generalize hqueue : w.dispatcher.queue = ds
  induction ds generalizing w with
  | nil =>
      refine ⟨w, Steps.refl w, (flush_of_queue_eq_nil hqueue).symm, ?_⟩
      exact Dispatcher.isIdle_iff.mpr ⟨hqueue, hrunning⟩
  | cons d ds ih =>
      obtain ⟨w₁, hsteps₁, hnext⟩ := exists_steps_deliverNext hrunning
      have hrunning₁ : w₁.dispatcher.running = none := by
        rw [hnext]
        exact running_deliverNext hrunning
      have hqueue₁ : w₁.dispatcher.queue = ds := by
        rw [hnext, queue_deliverNext hrunning, hqueue, List.tail_cons]
      obtain ⟨w₂, hsteps₂, hflush, hidle⟩ := ih hrunning₁ hqueue₁
      refine ⟨w₂, hsteps₁.trans hsteps₂, ?_, hidle⟩
      rw [hflush, hnext, flush_deliverNext hrunning (by rw [hqueue]; exact List.cons_ne_nil d ds)]

/-- **The worker comes to rest, wherever it is.** -/
theorem AtWork.exists_idle (w : AtWork) : ∃ w', w.Steps w' ∧ w'.dispatcher.isIdle = true := by
  cases hrunning : w.dispatcher.running with
  | none =>
      obtain ⟨w', hsteps, -, hidle⟩ := exists_steps_flush hrunning
      exact ⟨w', hsteps, hidle⟩
  | some d =>
      obtain ⟨w', hsteps, -, hidle⟩ := exists_steps_flush
        (w := { w with
          seen := callAll w.crashes d.notice w.left w.seen
          left := []
          dispatcher := w.dispatcher.finish })
        (by simp [Dispatcher.finish, hrunning])
      exact ⟨w', (steps_finish hrunning).trans hsteps, hidle⟩

end PeerStore.Notifier
