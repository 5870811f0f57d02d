import PeerStore.Proofs.Notifier.Work
import PeerStore.Proofs.Subscription

/-!
# Runs of a notifier

A run mixes calls of a notifier with steps of its worker, in any order. Which deliveries it accepts
is settled by the calls alone (`queued`): each notice is for the observers that hear of its origin
when it comes, until shutdown is called. The worker makes them one after the other, whatever comes
between (`AtWork.InOrder`); when it is at rest, the calls that the observers have had are those that
these deliveries lead to (**`AtWork.InOrder.at_rest`**).
-/

set_option autoImplicit false

namespace PeerStore.Notifier

/-- What can happen to a notifier: a call, or a step of its worker. -/
inductive Event where
  | subscribe (observer : String) (scope : Scope)
  | unsubscribe (observer : String) (scope : Scope)
  | notify (origin : Origin) (notice : Notice)
  | clearSubscriptions
  /-- Shutdown is called. It returns once the worker is at rest. -/
  | stop
  | work
  deriving DecidableEq

/-- Whether an event is a call. -/
def Event.isCall : Event → Bool
  | .work => false
  | _ => true

namespace AtWork

/-- The notifier after an event. A call that is refused changes nothing. -/
def handle (w : AtWork) : Event → AtWork
  | .subscribe observer scope =>
      match w.subscribe observer scope with
      | .ok n => { w with toNotifier := n }
      | .error _ => w
  | .unsubscribe observer scope =>
      match w.unsubscribe observer scope with
      | .ok n => { w with toNotifier := n }
      | .error _ => w
  | .notify origin notice => { w with toNotifier := (w.notify origin notice).2 }
  | .clearSubscriptions => { w with toNotifier := w.clearSubscriptions }
  | .stop => { w with dispatcher := w.dispatcher.stop }
  | .work => w.work

/-- The notifier after events, one after the other. -/
def run (w : AtWork) (events : List Event) : AtWork := events.foldl handle w

/-- Steps of the worker are a run in which nothing else happens. -/
theorem Steps.run {w w' : AtWork} (h : w.Steps w') : ∃ k, w.run (List.replicate k .work) = w' := by
  obtain ⟨k, rfl⟩ := h
  refine ⟨k, ?_⟩
  induction k generalizing w with
  | zero => rfl
  | succ k ih => exact ih (w := w.work)

end AtWork

/-! ## The deliveries that calls lead to -/

/-- The registry after an event. -/
def registryAfter (r : Registry) : Event → Registry
  | .subscribe observer scope => (r.subscribe observer scope).toOption.getD r
  | .unsubscribe observer scope => (r.unsubscribe observer scope).toOption.getD r
  | .clearSubscriptions => r.clear
  | _ => r

/-- The delivery that an event leads to: a notice, unless it is empty or nobody hears of it, goes to
those that hear of its origin. -/
def delivery? (r : Registry) : Event → Option Delivery
  | .notify origin notice =>
      if notice.isEmpty || (r.targets origin).isEmpty then none
      else some ⟨r.targets origin, notice⟩
  | _ => none

/-- The deliveries that events lead to until shutdown is called. -/
def queued (r : Registry) : List Event → List Delivery
  | [] => []
  | .stop :: _ => []
  | e :: es => (delivery? r e).toList ++ queued (registryAfter r e) es

theorem queued_cons {e : Event} (h : e ≠ .stop) (r : Registry) (es : List Event) :
    queued r (e :: es) = (delivery? r e).toList ++ queued (registryAfter r e) es := by
  cases e with
  | stop => exact absurd rfl h
  | _ => rfl

/-- The steps of the worker do not matter to the deliveries that there are. -/
theorem queued_filter_isCall (r : Registry) (es : List Event) :
    queued r (es.filter Event.isCall) = queued r es := by
  induction es generalizing r with
  | nil => rfl
  | cons e es ih =>
      cases e with
      | work => exact ih r
      | stop => rfl
      | _ => exact congrArg (_ ++ ·) (ih _)

/-- A registry that holds each observer once goes on to do so. -/
theorem distinct_registryAfter {r : Registry} (hr : r.Distinct) (e : Event) :
    (registryAfter r e).Distinct := by
  cases e with
  | subscribe observer scope =>
      rw [registryAfter]
      cases hcall : r.subscribe observer scope with
      | ok r' => exact hr.subscribe hcall
      | error err => exact hr
  | unsubscribe observer scope =>
      rw [registryAfter]
      cases hcall : r.unsubscribe observer scope with
      | ok r' => exact hr.unsubscribe hcall
      | error err => exact hr
  | clearSubscriptions => exact Registry.distinct_clear r
  | _ => exact hr

theorem delivery?_eq_some {r : Registry} {e : Event} {d : Delivery} (h : delivery? r e = some d) :
    ∃ origin, e = .notify origin d.notice ∧ d.notice.isEmpty = false
      ∧ d.targets = r.targets origin := by
  cases e with
  | notify origin notice =>
      rw [delivery?] at h
      split at h
      · cases h
      · rename_i hsome
        cases h
        rw [Bool.or_eq_true, not_or, Bool.not_eq_true] at hsome
        exact ⟨origin, rfl, hsome.1, rfl⟩
  | _ => cases h

/-- Every delivery is for observers that differ. -/
theorem nodup_targets_of_mem_queued {r : Registry} (hr : r.Distinct) {es : List Event}
    {d : Delivery} (h : d ∈ queued r es) : d.targets.Nodup := by
  induction es generalizing r with
  | nil => exact absurd h List.not_mem_nil
  | cons e es ih =>
      by_cases hstop : e = .stop
      · subst hstop
        exact absurd h List.not_mem_nil
      rw [queued_cons hstop, List.mem_append, Option.mem_toList] at h
      rcases h with hnew | hlater
      · obtain ⟨origin, -, -, htargets⟩ := delivery?_eq_some hnew
        rw [htargets]
        exact Registry.nodup_targets hr origin
      · exact ih (distinct_registryAfter hr e) hlater

/-- Queueing a notice changes the queue alone, and not after shutdown. -/
theorem notify_snd (n : Notifier) (origin : Origin) (notice : Notice) :
    (n.notify origin notice).2 = { n with
      dispatcher := { n.dispatcher with
        queue := n.dispatcher.queue ++
          if n.dispatcher.stopped then []
          else (delivery? n.registry (.notify origin notice)).toList } } := by
  obtain ⟨registry, ⟨queue, running, finished, stopped⟩, crashes, seen⟩ := n
  simp only [notify, delivery?]
  by_cases hempty : notice.isEmpty = true
  · simp [hempty]
  · simp only [hempty, Bool.false_or]
    cases htargets : registry.targets origin with
    | nil => simp
    | cons o os => cases stopped <;> simp [Dispatcher.submit]

namespace AtWork

/-- **What a call does**: it changes the registry, adds its delivery to the queue unless shutdown
has been called, or is the call of shutdown. -/
theorem handle_of_isCall (w : AtWork) {e : Event} (h : e.isCall = true) :
    w.handle e = { w with
      registry := registryAfter w.registry e
      dispatcher := { w.dispatcher with
        queue := w.dispatcher.queue ++
          if w.dispatcher.stopped then [] else (delivery? w.registry e).toList
        stopped := w.dispatcher.stopped || decide (e = .stop) } } := by
  cases e with
  | subscribe observer scope =>
      rw [handle, registryAfter, subscribe]
      cases w.registry.subscribe observer scope <;> simp [delivery?, Except.map, Except.toOption]
  | unsubscribe observer scope =>
      rw [handle, registryAfter, unsubscribe]
      cases w.registry.unsubscribe observer scope <;> simp [delivery?, Except.map, Except.toOption]
  | notify origin notice =>
      rw [handle, notify_snd]
      simp [registryAfter]
  | clearSubscriptions => simp [handle, clearSubscriptions, registryAfter, delivery?]
  | stop => simp [handle, Dispatcher.stop, registryAfter, delivery?]
  | work => exact absurd h Bool.false_ne_true

/-! ## Deliveries in order -/

/-- All deliveries accepted so far: those made, the one in progress, and those in the queue. -/
def log (w : AtWork) : List Delivery :=
  w.dispatcher.finished ++ w.dispatcher.running.toList ++ w.dispatcher.queue

/-- The worker moves deliveries along, and changes nothing that calls depend on. -/
theorem work_rest (w : AtWork) :
    w.work.log = w.log ∧ w.work.registry = w.registry
      ∧ w.work.dispatcher.stopped = w.dispatcher.stopped ∧ w.work.crashes = w.crashes := by
  cases hrunning : w.dispatcher.running with
  | none =>
      cases hqueue : w.dispatcher.queue with
      | nil =>
          rw [work_of_idle hrunning hqueue]
          exact ⟨rfl, rfl, rfl, rfl⟩
      | cons d ds =>
          rw [work_of_queued hrunning hqueue]
          exact ⟨by simp [log, hrunning, hqueue], rfl, rfl, rfl⟩
  | some d =>
      cases hleft : w.left with
      | nil =>
          rw [work_of_called hrunning hleft]
          exact ⟨by simp [log, hrunning], rfl, rfl, rfl⟩
      | cons o os =>
          rw [work_of_left hrunning hleft]
          exact ⟨by simp [log], rfl, rfl, rfl⟩

theorem log_run (w : AtWork) (es : List Event) :
    (w.run es).log
      = w.log ++ if w.dispatcher.stopped then [] else queued w.registry es := by
  induction es generalizing w with
  | nil => simp [run, queued]
  | cons e es ih =>
      show ((w.handle e).run es).log = _
      rw [ih]
      by_cases hcall : e.isCall = true
      · rw [handle_of_isCall w hcall]
        by_cases hstopped : w.dispatcher.stopped = true
        · simp [log, hstopped]
        · by_cases hstop : e = .stop
          · subst hstop
            simp [log, hstopped, queued, delivery?]
          · rw [queued_cons hstop]
            simp [log, hstopped, hstop]
      · cases e with
        | work =>
            obtain ⟨hlog, hregistry, hstopped, -⟩ := w.work_rest
            show w.work.log
              ++ (if w.work.dispatcher.stopped then [] else queued w.work.registry es) = _
            rw [hlog, hregistry, hstopped]
            rfl
        | _ => exact absurd rfl hcall

theorem crashes_run (w : AtWork) (es : List Event) : (w.run es).crashes = w.crashes := by
  induction es generalizing w with
  | nil => rfl
  | cons e es ih =>
      refine (ih (w.handle e)).trans ?_
      by_cases hcall : e.isCall = true
      · rw [handle_of_isCall w hcall]
      · cases e with
        | work => exact w.work_rest.2.2.2
        | _ => exact absurd rfl hcall

end AtWork

/-! ## Calls of observers in order -/

/-- The calls of observers after deliveries have been made, one after the other. -/
def callsAfter (crashes : Crashes) (seen : List (String × Notice)) (ds : List Delivery) :
    List (String × Notice) :=
  ds.foldl (fun seen d => callAll crashes d.notice d.targets seen) seen

theorem callsAfter_concat (crashes : Crashes) (seen : List (String × Notice))
    (ds : List Delivery) (d : Delivery) :
    callsAfter crashes seen (ds ++ [d])
      = callAll crashes d.notice d.targets (callsAfter crashes seen ds) :=
  List.foldl_concat ..

namespace AtWork

/-- The calls of observers once the delivery in progress will have been made. -/
def pledged (w : AtWork) : List (String × Notice) :=
  match w.dispatcher.running with
  | none => w.seen
  | some d => callAll w.crashes d.notice w.left w.seen

/-- Whether the calls so far, with those that the delivery in progress still makes, are those that
the deliveries lead to when they are made one after the other. -/
def InOrder (w : AtWork) : Prop :=
  w.pledged
    = callsAfter w.crashes [] (w.dispatcher.finished ++ w.dispatcher.running.toList)

theorem InOrder.work {w : AtWork} (h : w.InOrder) : w.work.InOrder := by
  rw [InOrder, pledged] at h
  cases hrunning : w.dispatcher.running with
  | none =>
      rw [hrunning, Option.toList_none, List.append_nil] at h
      cases hqueue : w.dispatcher.queue with
      | nil =>
          rw [work_of_idle hrunning hqueue, InOrder, pledged, hrunning, Option.toList_none,
            List.append_nil]
          exact h
      | cons d ds =>
          rw [work_of_queued hrunning hqueue]
          -- all targets are left, and the calls so far are those of the deliveries made
          show callAll w.crashes d.notice d.targets w.seen = callsAfter _ _ (_ ++ [d])
          rw [callsAfter_concat, ← h]
  | some d =>
      rw [hrunning, Option.toList_some] at h
      cases hleft : w.left with
      | nil =>
          rw [work_of_called hrunning hleft]
          show w.seen = callsAfter _ _ ((w.dispatcher.finished ++ [d]) ++ [])
          rw [List.append_nil, ← h, hleft]
          rfl
      | cons o os =>
          rw [work_of_left hrunning hleft, InOrder, pledged]
          simp only [hrunning, Option.toList_some]
          rw [← h, hleft]
          simp only [callAll]
          split <;> rfl

theorem InOrder.handle {w : AtWork} (h : w.InOrder) (e : Event) : (w.handle e).InOrder := by
  by_cases hcall : e.isCall = true
  · rw [handle_of_isCall w hcall]
    exact h
  · cases e with
    | work => exact h.work
    | _ => exact absurd rfl hcall

theorem InOrder.run {w : AtWork} (h : w.InOrder) (es : List Event) : (w.run es).InOrder := by
  induction es generalizing w with
  | nil => exact h
  | cons e es ih => exact ih (h.handle e)

/-- **When the worker is at rest**, it has made the deliveries that were accepted, one after the
other. -/
theorem InOrder.at_rest {w : AtWork} (h : w.InOrder) (hidle : w.dispatcher.isIdle = true) :
    w.dispatcher.finished = w.log ∧ w.seen = callsAfter w.crashes [] w.log := by
  obtain ⟨hqueue, hrunning⟩ := Dispatcher.isIdle_iff.mp hidle
  have hlog : w.log = w.dispatcher.finished := by
    rw [log, hrunning, hqueue, Option.toList_none, List.append_nil, List.append_nil]
  rw [InOrder, pledged, hrunning, Option.toList_none, List.append_nil, ← hlog] at h
  exact ⟨hlog.symm, h⟩

/-- The worker alone neither accepts deliveries nor takes them out of order. -/
theorem Steps.keeps {w w' : AtWork} (h : w.Steps w') (horder : w.InOrder) :
    w'.log = w.log ∧ w'.crashes = w.crashes ∧ w'.InOrder := by
  obtain ⟨k, rfl⟩ := h
  induction k generalizing w with
  | zero => exact ⟨rfl, rfl, horder⟩
  | succ k ih =>
      obtain ⟨hlog, -, -, hcrashes⟩ := w.work_rest
      obtain ⟨hlog', hcrashes', horder'⟩ := ih horder.work
      exact ⟨hlog'.trans hlog, hcrashes'.trans hcrashes, horder'⟩

/-- Nor does it change the registry, or stop accepting. -/
theorem Steps.settled {w w' : AtWork} (h : w.Steps w') :
    w'.registry = w.registry ∧ w'.dispatcher.stopped = w.dispatcher.stopped := by
  obtain ⟨k, rfl⟩ := h
  induction k generalizing w with
  | zero => exact ⟨rfl, rfl⟩
  | succ k ih =>
      obtain ⟨-, hregistry, hstopped, -⟩ := w.work_rest
      obtain ⟨hregistry', hstopped'⟩ := ih (w := w.work)
      exact ⟨hregistry'.trans hregistry, hstopped'.trans hstopped⟩

end AtWork

/-! ## Between deliveries -/

/-- Whether a notifier, in the middle of no delivery, has accepted some deliveries and made those
that do not wait, one after the other. -/
structure Served (crashes : Crashes) (ds : List Delivery) (n : Notifier) : Prop where
  crashes_eq : n.crashes = crashes
  running : n.dispatcher.running = none
  accepted : n.dispatcher.finished ++ n.dispatcher.queue = ds
  seen : n.seen = callsAfter crashes [] n.dispatcher.finished

theorem served_ofMax (max : Nat) (crashes : Crashes) : Served crashes [] (ofMax max crashes) :=
  ⟨rfl, rfl, rfl, rfl⟩

/-- **A notifier that delivers every queued notice has made all deliveries**, and accepts as many
more as before. -/
theorem Served.flush {crashes : Crashes} {ds : List Delivery} {n : Notifier}
    (h : n.Served crashes ds) :
    n.flush.Served crashes ds ∧ n.flush.dispatcher.queue = []
      ∧ n.flush.registry = n.registry ∧ n.flush.dispatcher.stopped = n.dispatcher.stopped := by
  obtain ⟨w', hsteps, hflush, hidle⟩ := AtWork.exists_steps_flush (w := { toNotifier := n }) h.running
  have horder : AtWork.InOrder { toNotifier := n } := by
    show (match n.dispatcher.running with | none => n.seen | some _ => _) = callsAfter n.crashes [] _
    rw [h.running, h.crashes_eq, Option.toList_none, List.append_nil]
    exact h.seen
  obtain ⟨hlog, hcrashes, horder'⟩ := hsteps.keeps horder
  obtain ⟨hregistry, hstopped⟩ := hsteps.settled
  obtain ⟨hfinished, hseen⟩ := horder'.at_rest hidle
  have hds : AtWork.log { toNotifier := n } = ds := by
    show n.dispatcher.finished ++ n.dispatcher.running.toList ++ n.dispatcher.queue = ds
    rw [h.running, Option.toList_none, List.append_nil, h.accepted]
  obtain ⟨hqueue, hrunning⟩ := Dispatcher.isIdle_iff.mp hidle
  rw [hlog, hds] at hfinished hseen
  rw [← hflush]
  refine ⟨⟨hcrashes.trans h.crashes_eq, hrunning, ?_, ?_⟩, hqueue, hregistry, hstopped⟩
  · rw [hqueue, List.append_nil, hfinished]
  · rw [hseen, hfinished, hcrashes.trans h.crashes_eq]

/-! ## Runs from the start -/

/-- A new notifier for at most `max` observers, its worker at rest. -/
def start (max : Nat) (crashes : Crashes) : AtWork := { toNotifier := ofMax max crashes }

theorem log_start (max : Nat) (crashes : Crashes) (es : List Event) :
    ((start max crashes).run es).log = queued { max } es :=
  (start max crashes).log_run es

theorem inOrder_start (max : Nat) (crashes : Crashes) (es : List Event) :
    ((start max crashes).run es).InOrder := by
  have hstart : (start max crashes).InOrder := rfl
  exact hstart.run es

end PeerStore.Notifier
