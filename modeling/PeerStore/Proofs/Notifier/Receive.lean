import PeerStore.Proofs.Notifier.Run

/-!
# What observers receive

A delivery calls its targets in turn, up to the first that crashes, so it reaches an observer unless
a target ahead of it crashes (`Round.reaches`). What an observer has received once the worker is at
rest are the notices of the deliveries that reach it, in order, each once (`received_of_isIdle`).
What it is owed is said without registries and queues (`owed`): the notices that are not empty and
that come before shutdown, when the calls that were accepted have left it subscribed to their
origin. An observer that is spared receives what it is owed (`received_of_spared`), and where nobody
crashes all do (**`observers_receive_what_is_owed`**).
-/

set_option autoImplicit false

namespace PeerStore.Notifier

/-! ## Rounds -/

/-- The observers that a delivery calls: its targets in turn, up to the first that crashes. The
first call is the `k`-th of all. -/
def called (crashes : Crashes) : Nat → List String → List String
  | _, [] => []
  | k, o :: os => if crashes k o then [o] else o :: called crashes (k + 1) os

/-- A delivery with the number that its first call has among all calls of observers. -/
structure Round where
  delivery : Delivery
  first : Nat

namespace Round

/-- Whether no target ahead of an observer crashes. -/
def spares (crashes : Crashes) (observer : String) (r : Round) : Bool :=
  ((r.delivery.targets.takeWhile (· != observer)).zipIdx r.first).all
    fun call => !crashes call.2 call.1

/-- Whether an observer is a target and no target ahead of it crashes. -/
def reaches (crashes : Crashes) (observer : String) (r : Round) : Bool :=
  r.delivery.targets.contains observer && r.spares crashes observer

end Round

/-- The rounds of deliveries that are made one after the other. -/
def rounds (crashes : Crashes) : Nat → List Delivery → List Round
  | _, [] => []
  | k, d :: ds => ⟨d, k⟩ :: rounds crashes (k + (called crashes k d.targets).length) ds

theorem callAll_eq (crashes : Crashes) (notice : Notice) (os : List String)
    (seen : List (String × Notice)) :
    callAll crashes notice os seen
      = seen ++ (called crashes seen.length os).map fun o => (o, notice) := by
  induction os generalizing seen with
  | nil => simp [callAll, called]
  | cons o os ih =>
      rw [callAll, called]
      split
      · rfl
      · rw [ih, List.length_append, List.length_singleton, List.map_cons, List.append_assoc]
        rfl

theorem called_sublist (crashes : Crashes) (k : Nat) (os : List String) :
    (called crashes k os).Sublist os := by
  induction os generalizing k with
  | nil => exact List.Sublist.refl _
  | cons o os ih =>
      rw [called]
      split
      · exact (List.nil_sublist os).cons_cons o
      · exact (ih (k + 1)).cons_cons o

/-- **A delivery calls an observer exactly if it reaches it.** -/
theorem contains_called (crashes : Crashes) (observer : String) (r : Round) :
    (called crashes r.first r.delivery.targets).contains observer
      = r.reaches crashes observer := by
  obtain ⟨⟨os, notice⟩, k⟩ := r
  simp only [Round.reaches, Round.spares]
  induction os generalizing k with
  | nil => rfl
  | cons o os ih =>
      rw [called]
      by_cases ho : o = observer
      · subst ho
        split <;> simp
      · have hne : (o != observer) = true := by simpa using ho
        rw [List.takeWhile_cons, if_pos hne, List.zipIdx_cons, List.all_cons, List.contains_cons,
          beq_eq_false_iff_ne.mpr (Ne.symm ho), Bool.false_or]
        by_cases hcrash : crashes k o = true
        · simp [hcrash, Ne.symm ho]
        · rw [if_neg hcrash, List.contains_cons, beq_eq_false_iff_ne.mpr (Ne.symm ho),
            Bool.false_or, ih, Bool.eq_false_iff.mpr hcrash, Bool.not_false, Bool.true_and]

theorem map_delivery_rounds (crashes : Crashes) (k : Nat) (ds : List Delivery) :
    (rounds crashes k ds).map (·.delivery) = ds := by
  induction ds generalizing k with
  | nil => rfl
  | cons d ds ih => exact congrArg (d :: ·) (ih _)

/-! ## Notices received -/

/-- The notices that calls have brought to an observer. -/
def received (seen : List (String × Notice)) (observer : String) : List Notice :=
  (seen.filter (·.1 == observer)).map (·.2)

theorem received_append (seen seen' : List (String × Notice)) (observer : String) :
    received (seen ++ seen') observer = received seen observer ++ received seen' observer := by
  rw [received, List.filter_append, List.map_append]
  rfl

/-- A notice that goes to observers that differ comes to each of them once. -/
theorem received_map {os : List String} (h : os.Nodup) (notice : Notice) (observer : String) :
    received (os.map fun o => (o, notice)) observer
      = if os.contains observer then [notice] else [] := by
  induction os with
  | nil => rfl
  | cons o os ih =>
      obtain ⟨hnew, hrest⟩ := List.nodup_cons.mp h
      have hcons : received ((o :: os).map fun o => (o, notice)) observer
          = (if o == observer then [notice] else [])
            ++ received (os.map fun o => (o, notice)) observer := by
        rw [received, List.map_cons, List.filter_cons]
        split <;> rfl
      rw [hcons, ih hrest, List.contains_cons]
      by_cases ho : o = observer
      · subst ho
        simp [hnew]
      · simp [ho, Ne.symm ho]

/-- What an observer receives from deliveries are the notices of the rounds that reach it. -/
theorem received_callsAfter (crashes : Crashes) {ds : List Delivery}
    (h : ∀ d ∈ ds, d.targets.Nodup) (seen : List (String × Notice)) (observer : String) :
    received (callsAfter crashes seen ds) observer
      = received seen observer
        ++ ((rounds crashes seen.length ds).filter (Round.reaches crashes observer)).map
          (·.delivery.notice) := by
  induction ds generalizing seen with
  | nil => rw [rounds, List.filter_nil, List.map_nil, List.append_nil, callsAfter, List.foldl_nil]
  | cons d ds ih =>
      obtain ⟨hd, hds⟩ := List.forall_mem_cons.mp h
      have hnodup := hd.sublist (called_sublist crashes seen.length d.targets)
      have hcontains := contains_called crashes observer ⟨d, seen.length⟩
      show received (callsAfter crashes (callAll crashes d.notice d.targets seen) ds) observer = _
      rw [ih hds, callAll_eq, received_append, received_map hnodup, List.length_append,
        List.length_map, rounds, List.filter_cons, List.append_assoc]
      dsimp only at hcontains
      rw [hcontains]
      split <;> rfl

/-- **What an observer has received once the worker is at rest** are the notices of the rounds that
reach it. -/
theorem received_at_rest {w : AtWork} (horder : w.InOrder) (hidle : w.dispatcher.isIdle = true)
    (h : ∀ d ∈ w.log, d.targets.Nodup) (observer : String) :
    received w.seen observer
      = ((rounds w.crashes 0 w.log).filter (Round.reaches w.crashes observer)).map
        (·.delivery.notice) := by
  rw [(horder.at_rest hidle).2, received_callsAfter w.crashes h [] observer]
  rfl

/-- An observer that is spared whenever it is a target receives the notices of all deliveries that
it is a target of. -/
theorem map_notice_of_spared {crashes : Crashes} {k : Nat} {ds : List Delivery} {observer : String}
    (h : ∀ r ∈ rounds crashes k ds,
      observer ∈ r.delivery.targets → r.spares crashes observer = true) :
    ((rounds crashes k ds).filter (Round.reaches crashes observer)).map (·.delivery.notice)
      = (ds.filter (·.targets.contains observer)).map (·.notice) := by
  have hreaches : ∀ r ∈ rounds crashes k ds,
      r.reaches crashes observer = r.delivery.targets.contains observer := by
    intro r hr
    rw [Round.reaches]
    cases htarget : r.delivery.targets.contains observer with
    | false => rfl
    | true => exact h r hr (List.contains_iff_mem.mp htarget)
  rw [List.filter_congr hreaches]
  calc ((rounds crashes k ds).filter fun r => r.delivery.targets.contains observer).map
        (·.delivery.notice)
      = (((rounds crashes k ds).filter fun r => r.delivery.targets.contains observer).map
          (·.delivery)).map (·.notice) := (List.map_map ..).symm
    _ = (((rounds crashes k ds).map (·.delivery)).filter (·.targets.contains observer)).map
          (·.notice) := by rw [List.filter_map]; rfl
    _ = (ds.filter (·.targets.contains observer)).map (·.notice) := by rw [map_delivery_rounds]

/-! ## Notices owed -/

/-- Whether an observer hears of an origin after a call, if it did or did not before. -/
def Event.hearing (observer : String) (origin : Origin) (before : Bool) : Event → Bool
  | .subscribe o scope => before || (o == observer && scope.includes origin)
  | .unsubscribe o scope => before && !(o == observer && scope.includes origin)
  | .clearSubscriptions => false
  | _ => before

/-- The notices that calls make an observer hear of: those that are not empty and come before
shutdown, while the calls before have left it subscribed to their origin. -/
def owed (observer : String) : (Origin → Bool) → List Event → List Notice
  | _, [] => []
  | _, .stop :: _ => []
  | hears, .notify origin notice :: es =>
      if !notice.isEmpty && hears origin then notice :: owed observer hears es
      else owed observer hears es
  | hears, e :: es => owed observer (fun origin => e.hearing observer origin (hears origin)) es

/-- Whether a registry accepts a call. -/
def accepts (r : Registry) : Event → Bool
  | .subscribe observer scope => (r.subscribe observer scope).isOk
  | .unsubscribe observer scope => (r.unsubscribe observer scope).isOk
  | _ => true

/-- Events without the calls that are refused. -/
def accepted (r : Registry) : List Event → List Event
  | [] => []
  | e :: es =>
      if accepts r e then e :: accepted (registryAfter r e) es else accepted (registryAfter r e) es

/-- The deliveries that an observer is a target of bring it what it is owed. -/
theorem map_notice_queued {r : Registry} (hr : r.Distinct) (observer : String) (es : List Event) :
    ((queued r es).filter (·.targets.contains observer)).map (·.notice)
      = owed observer (r.hears observer) (accepted r es) := by
  induction es generalizing r with
  | nil => rfl
  | cons e es ih =>
      have hrest := ih (distinct_registryAfter hr e)
      cases e with
      | subscribe o scope =>
          refine hrest.trans ?_
          rw [accepted, accepts, registryAfter]
          cases hcall : r.subscribe o scope with
          | error err => rfl
          | ok r' =>
              have hhears : r'.hears observer = fun origin =>
                  (Event.subscribe o scope).hearing observer origin (r.hears observer origin) :=
                funext fun origin => Registry.hears_subscribe hcall observer origin
              show owed observer (r'.hears observer) (accepted r' es) = _
              rw [hhears]
              rfl
      | unsubscribe o scope =>
          refine hrest.trans ?_
          rw [accepted, accepts, registryAfter]
          cases hcall : r.unsubscribe o scope with
          | error err => rfl
          | ok r' =>
              have hhears : r'.hears observer = fun origin =>
                  (Event.unsubscribe o scope).hearing observer origin (r.hears observer origin) :=
                funext fun origin => Registry.hears_unsubscribe hcall observer origin
              show owed observer (r'.hears observer) (accepted r' es) = _
              rw [hhears]
              rfl
      | notify origin notice =>
          have htarget : observer ∈ r.targets origin ↔ r.hears observer origin = true :=
            Registry.mem_targets_iff hr
          rw [queued_cons Event.noConfusion, List.filter_append, List.map_append, hrest]
          show _ = owed observer (r.hears observer) (.notify origin notice :: accepted r es)
          simp only [delivery?, owed, registryAfter]
          by_cases hempty : notice.isEmpty = true
          · simp [hempty]
          · by_cases hnobody : r.targets origin = []
            · have hdeaf : ¬r.hears observer origin = true := fun hhears => by
                rw [← htarget, hnobody] at hhears
                exact List.not_mem_nil hhears
              simp [hnobody, hdeaf]
            · by_cases hhears : r.hears observer origin = true <;>
                simp [hempty, hnobody, htarget, hhears]
      | clearSubscriptions => exact hrest
      | stop => rfl
      | work => exact hrest

/-- **An observer that is spared receives what it is owed.** -/
theorem received_of_spared {max : Nat} {es : List Event} {w : AtWork} (horder : w.InOrder)
    (hlog : w.log = queued { max } es) (hidle : w.dispatcher.isIdle = true) {observer : String}
    (h : ∀ r ∈ rounds w.crashes 0 w.log,
      observer ∈ r.delivery.targets → r.spares w.crashes observer = true) :
    received w.seen observer = owed observer (fun _ => false) (accepted { max } es) := by
  have hdistinct : ({ max } : Registry).Distinct := List.nodup_nil
  have hnodup : ∀ d ∈ w.log, d.targets.Nodup := fun d hd =>
    nodup_targets_of_mem_queued hdistinct (hlog ▸ hd)
  rw [received_at_rest horder hidle hnodup, map_notice_of_spared h, hlog,
    map_notice_queued hdistinct]
  rfl

/-- Where nobody crashes, every observer is spared. -/
theorem spares_of_no_crash {crashes : Crashes} (h : ∀ k o, crashes k o = false)
    (observer : String) (r : Round) : r.spares crashes observer = true :=
  List.all_eq_true.mpr fun call _ => by rw [h, Bool.not_false]

/-- **Where nobody crashes, observers receive what they are owed**, in order and each notice once.
They have when the worker is at rest, whatever happened between its steps, and when a notifier whose
worker is free is flushed or shut down; and the worker comes to rest from wherever it is. -/
theorem observers_receive_what_is_owed {crashes : Crashes} (hcrashes : ∀ k o, crashes k o = false)
    (max : Nat) (es : List Event) (observer : String) :
    let w := (start max crashes).run es
    let due := owed observer (fun _ => false) (accepted { max } es)
    (w.dispatcher.isIdle = true → received w.seen observer = due)
      ∧ (w.dispatcher.running = none →
          received w.flush.seen observer = due ∧ received w.shutdown.seen observer = due)
      ∧ ∃ k, (w.run (List.replicate k .work)).dispatcher.isIdle = true := by
  intro w due
  have horder : w.InOrder := inOrder_start max crashes es
  have hlog : w.log = queued { max } es := log_start max crashes es
  have hw : w.crashes = crashes := (start max crashes).crashes_run es
  -- it suffices that the worker came to rest without another delivery being accepted
  have hdue {w' : AtWork} (horder : w'.InOrder) (hlog : w'.log = queued { max } es)
      (hw : w'.crashes = crashes) (hidle : w'.dispatcher.isIdle = true) :
      received w'.seen observer = due :=
    received_of_spared horder hlog hidle fun r _ _ =>
      hw ▸ spares_of_no_crash hcrashes observer r
  have hflush {w' : AtWork} (horder : w'.InOrder) (hlog : w'.log = queued { max } es)
      (hw : w'.crashes = crashes) (hrunning : w'.dispatcher.running = none) :
      received w'.flush.seen observer = due := by
    obtain ⟨w'', hsteps, hsame, hidle⟩ := AtWork.exists_steps_flush hrunning
    obtain ⟨hlog', hw', horder'⟩ := hsteps.keeps horder
    rw [← hsame]
    exact hdue horder' (hlog'.trans hlog) (hw'.trans hw) hidle
  refine ⟨hdue horder hlog hw, fun hrunning => ⟨hflush horder hlog hw hrunning, ?_⟩, ?_⟩
  · -- shutdown accepts no delivery, and then flushes
    have hstop : (w.handle .stop).log = queued { max } es := hlog
    exact hflush (horder.handle .stop) hstop hw hrunning
  · obtain ⟨w', hsteps, hidle⟩ := w.exists_idle
    obtain ⟨k, hk⟩ := hsteps.run
    exact ⟨k, by rw [hk]; exact hidle⟩

/-- Two observers, one with a scope built up in two calls, with changes of their subscriptions while
notices are on their way, and a notice that comes after shutdown was called. -/
theorem observers_receive_what_is_owed_across_changes :
    let n₁ : Notice := { inserts := [⟨[1], [10]⟩], device := "self" }
    let n₂ : Notice := { deletes := [⟨[1], [10]⟩], device := "peer" }
    let es : List Event :=
      [.subscribe "a" .here, .subscribe "b" .remote, .notify .here n₁, .subscribe "a" .all,
        .notify .here {}, .notify (.remote "peer") n₂, .work, .unsubscribe "a" .all, .work,
        .notify .here n₁, .stop, .notify (.remote "peer") n₂, .work, .work, .work, .work, .work]
    received ((start 8 fun _ _ => false).run es).seen "a" = [n₁, n₂]
      ∧ received ((start 8 fun _ _ => false).run es).seen "b" = [n₂] := by
  intro n₁ n₂ es
  have hidle : ((start 8 fun _ _ => false).run es).dispatcher.isIdle = true := by decide
  have hreceive (observer : String) :
      received ((start 8 fun _ _ => false).run es).seen observer
        = owed observer (fun _ => false) (accepted { max := 8 } es) :=
    (@observers_receive_what_is_owed (fun _ _ => false) (fun _ _ => rfl) 8 es observer).1 hidle
  have ha : owed "a" (fun _ => false) (accepted { max := 8 } es) = [n₁, n₂] := by decide
  have hb : owed "b" (fun _ => false) (accepted { max := 8 } es) = [n₂] := by decide
  exact ⟨(hreceive "a").trans ha, (hreceive "b").trans hb⟩

end PeerStore.Notifier
