import PeerStore.Proofs.Sync.View

/-!
# How requests end

What becomes of a request is read off the events that come after it was begun: the first report of
each of its devices (`Asked.reported?`), and the first event that ends it (`Asked.ending?`), which
is the report of the last device that is missing, the watchdog's turn once its time is over, its
cancellation or shutdown. Until then it waits (`Asked.Awaits`, **`Asked.Awaits.run`**); the first
two tell its callback, and nothing after the end does (**`Asked.Awaits.run_to_end`**).
-/

set_option autoImplicit false

namespace PeerStore.Coordinator

/-! ## Numbers -/

/-- A number that was given is not given again. -/
theorem begun?_ne_of_lt {c : Coordinator} {seq : Nat} (h : seq < c.nextSeq) (e : Event) :
    ∀ r, c.begun? e = some r → r.seq ≠ seq := by
  intro r hbegun
  rw [(begun?_eq_some hbegun).2.1]
  exact Nat.ne_of_gt h

theorem nextSeq_le_handle (c : Coordinator) (e : Event) : c.nextSeq ≤ (c.handle e).nextSeq := by
  rw [(c.handle_rest e).2]
  exact Nat.le_add_right ..

/-! ## The end of a request -/

/-- The time that passes with events. -/
def elapsed : List Event → Nat
  | [] => 0
  | e :: es => e.milliseconds + elapsed es

theorem elapsed_concat (es : List Event) (e : Event) :
    elapsed (es ++ [e]) = elapsed es + e.milliseconds := by
  induction es with
  | nil => exact Nat.add_comm ..
  | cons e' es ih => rw [List.cons_append, elapsed, ih, elapsed, Nat.add_assoc]

namespace Asked

/-- The result that an event reports for a device of a request. -/
def result? (r : Asked) (device : String) : Event → Option SyncResult
  | .report seq device' result => if seq = r.seq ∧ device' = device then some result else none
  | _ => none

/-- The first result that is reported for a device. -/
def reported? (r : Asked) (device : String) (es : List Event) : Option SyncResult :=
  es.findSome? (r.result? device)

/-- Whether an event that comes after others is one at which the callback is told: the first report
of the only device that is missing, or the watchdog's turn when the time of the request is over. -/
def tells (r : Asked) (before : List Event) : Event → Bool
  | .report seq device _ =>
      seq == r.seq && r.devices.contains device && (r.reported? device before).isNone
        && r.devices.all fun other => other == device || (r.reported? other before).isSome
  | .expire => r.allowance ≤ elapsed before
  | _ => false

/-- Whether an event withdraws a request. -/
def withdraws (r : Asked) : Event → Bool
  | .cancel seq => seq == r.seq
  | .shutdown => true
  | _ => false

/-- The first event that ends a request, with the events before it. -/
def ending? (r : Asked) (before : List Event) : List Event → Option (List Event × Event)
  | [] => none
  | e :: es =>
      if r.tells before e || r.withdraws e then some (before, e) else r.ending? (before ++ [e]) es

/-- What is held of a request that an event ended which came after others: nothing, if the event
withdrew it; else that its callback was told, with a result for each of its devices and no other,
the first that was reported or, at the watchdog's turn only, that the device has timed out. -/
def Ended (r : Asked) (before : List Event) (e : Event) (v : View) : Prop :=
  (r.withdraws e = true ∧ v = ⟨none, []⟩)
    ∨ (r.tells before e = true
        ∧ ∃ results, v = ⟨none, [⟨r.seq, r.callback, results⟩]⟩
          ∧ (∀ device, results.get? device
            = if device ∈ r.devices then
                some ((r.reported? device (before ++ [e])).getD (.error .timedOut))
              else none)
          ∧ (e ≠ .expire →
              ∀ device ∈ r.devices, (r.reported? device (before ++ [e])).isSome = true))

theorem Ended.exists_view {r : Asked} {before : List Event} {e : Event} {v : View}
    (h : r.Ended before e v) : ∃ l, v = ⟨none, l⟩ ∧ l.length ≤ 1 := by
  obtain ⟨-, hview⟩ | ⟨-, results, hview, -⟩ := h
  · exact ⟨[], hview, Nat.zero_le 1⟩
  · exact ⟨_, hview, Nat.le_refl 1⟩

theorem reported?_concat (r : Asked) (device : String) (es : List Event) (e : Event) :
    r.reported? device (es ++ [e]) = (r.reported? device es).or (r.result? device e) := by
  rw [reported?, List.findSome?_append, List.findSome?_singleton]
  rfl

/-- Where a report tells the callback, all devices have reported. -/
theorem isSome_reported?_of_tells {r : Asked} {before : List Event} {e : Event}
    (htells : r.tells before e = true) (hne : e ≠ .expire) :
    ∀ device ∈ r.devices, (r.reported? device (before ++ [e])).isSome = true := by
  intro other hother
  rw [reported?_concat, Option.isSome_or, Bool.or_eq_true]
  cases e with
  | report seq device result =>
      simp only [tells, Bool.and_eq_true, beq_iff_eq, List.all_eq_true, Bool.or_eq_true] at htells
      obtain ⟨⟨⟨hseq, -⟩, -⟩, hall⟩ := htells
      obtain rfl | hgot := hall other hother
      · exact Or.inr (by rw [result?, if_pos ⟨hseq, rfl⟩]; rfl)
      · exact Or.inl hgot
  | expire => exact absurd rfl hne
  | _ => cases htells

/-! ## Waiting -/

/-- A coordinator waits for the devices of a request, of which those have a result that have
reported since it was begun. The time of the request can be over when it is begun. -/
structure Awaits (r : Asked) (before : List Event) (c : Coordinator) (p : PendingSync) : Prop where
  view : c.view r.seq = ⟨some p, []⟩
  old : r.seq < c.nextSeq
  devices : p.devices = KeySet.ofList r.devices
  callback : p.callback = r.callback
  deadline : ∃ begun, c.clock = begun + elapsed before ∧ r.allowance = p.deadline - begun
  results : ∀ device, p.results.get? device
    = if device ∈ r.devices then r.reported? device before else none
  waits : p.Waits

section

variable {r : Asked} {before : List Event} {c : Coordinator} {p : PendingSync}

theorem Awaits.due_iff (h : r.Awaits before c p) :
    p.deadline ≤ c.clock ↔ r.allowance ≤ elapsed before := by
  obtain ⟨begun, hclock, hallowance⟩ := h.deadline
  omega

theorem Awaits.contains_devices (h : r.Awaits before c p) (device : String) :
    p.devices.contains device = decide (device ∈ r.devices) := by
  rw [h.devices, KeySet.contains_ofList]

/-- The results after one more report. -/
theorem Awaits.get?_record (h : r.Awaits before c p) (device : String) (result : SyncResult)
    (other : String) :
    (p.record device result).results.get? other
      = if other ∈ r.devices then
          r.reported? other (before ++ [.report r.seq device result])
        else none := by
  rw [PendingSync.get?_record, h.contains_devices, h.results, reported?_concat]
  by_cases hin : other ∈ r.devices
  · by_cases hother : other = device
    · subst hother
      cases r.reported? other before <;> simp [hin, result?]
    · simp [hin, result?, hother, Ne.symm hother]
  · simp [hin]

/-- **The report that completes a request** is the one that tells its callback. -/
theorem Awaits.isComplete_record (h : r.Awaits before c p) (device : String)
    (result : SyncResult) :
    (p.record device result).isComplete = r.tells before (.report r.seq device result) := by
  have hgot (other : String) (hin : other ∈ r.devices) :
      p.results.contains other = (r.reported? other before).isSome := by
    rw [Table.contains, h.results, if_pos hin]
  rw [Bool.eq_iff_iff, PendingSync.isComplete_record_iff h.waits, tells, beq_self_eq_true,
    Bool.true_and, Bool.and_eq_true, Bool.and_eq_true, List.contains_iff_mem, List.all_eq_true]
  simp only [h.contains_devices, decide_eq_true_eq, Bool.or_eq_true, beq_iff_eq, and_assoc]
  refine and_congr_right fun hin => ?_
  rw [hgot device hin, ← Option.not_isSome, Bool.not_eq_true']
  refine and_congr_right fun _ => forall₂_congr fun other hother => ?_
  rw [hgot other hother]

/-! ## One step -/

theorem Awaits.view_handle (h : r.Awaits before c p) (e : Event) :
    (c.handle e).view r.seq = View.after ⟨some p, []⟩ r.seq c.clock e := by
  rw [Coordinator.view_handle c (begun?_ne_of_lt h.old e), h.view]

/-- A coordinator goes on waiting while it holds the request and the results reported so far. -/
theorem Awaits.next (h : r.Awaits before c p) {e : Event} {p' : PendingSync}
    (hview : View.after ⟨some p, []⟩ r.seq c.clock e = ⟨some p', []⟩)
    (hsame : p'.devices = p.devices ∧ p'.callback = p.callback ∧ p'.deadline = p.deadline)
    (hresults : ∀ device, p'.results.get? device
      = if device ∈ r.devices then r.reported? device (before ++ [e]) else none)
    (hwaits : p'.Waits) : r.Awaits (before ++ [e]) (c.handle e) p' where
  view := (h.view_handle e).trans hview
  old := Nat.lt_of_lt_of_le h.old (c.nextSeq_le_handle e)
  devices := hsame.1.trans h.devices
  callback := hsame.2.1.trans h.callback
  deadline := by
    obtain ⟨begun, hclock, hallowance⟩ := h.deadline
    refine ⟨begun, ?_, by rw [hallowance, hsame.2.2]⟩
    rw [(c.handle_rest e).1, elapsed_concat, hclock, Nat.add_assoc]
  results := hresults
  waits := hwaits

/-- An event that does not end a request leaves the coordinator waiting for it. -/
theorem Awaits.step (h : r.Awaits before c p) {e : Event} (htells : r.tells before e = false)
    (hwithdraws : r.withdraws e = false) : ∃ p', r.Awaits (before ++ [e]) (c.handle e) p' := by
  -- only a report of its own changes what is held of a request that goes on
  have hunchanged (hview : View.after ⟨some p, []⟩ r.seq c.clock e = ⟨some p, []⟩)
      (hnone : ∀ device, r.result? device e = none) :
      ∃ p', r.Awaits (before ++ [e]) (c.handle e) p' := by
    refine ⟨p, h.next hview ⟨rfl, rfl, rfl⟩ (fun device => ?_) h.waits⟩
    rw [reported?_concat, hnone, Option.or_none]
    exact h.results device
  cases e with
  | report seq device result =>
      by_cases hseq : seq = r.seq
      · subst hseq
        have hopen : (p.record device result).isComplete = false :=
          (h.isComplete_record device result).trans htells
        refine ⟨p.record device result, h.next ?_ ⟨p.devices_record device result,
          p.callback_record device result, p.deadline_record device result⟩
          (h.get?_record device result) (h.waits.record hopen)⟩
        rw [View.after_report, hopen]
        rfl
      · exact hunchanged (if_neg hseq) fun _ => if_neg fun hboth => hseq hboth.1
  | cancel seq =>
      have hseq : seq ≠ r.seq := by simpa [withdraws] using hwithdraws
      exact hunchanged (if_neg hseq) fun _ => rfl
  | expire =>
      have hdue : ¬p.deadline ≤ c.clock := by
        rw [h.due_iff]
        simpa [tells] using htells
      exact hunchanged (if_neg hdue) fun _ => rfl
  | shutdown => cases hwithdraws
  | _ => exact hunchanged rfl fun _ => rfl

/-- **What the callback is told** at an event that tells it. -/
theorem Awaits.told (h : r.Awaits before c p) {e : Event} (htells : r.tells before e = true) :
    r.Ended before e ((c.handle e).view r.seq) := by
  have hall := isSome_reported?_of_tells htells
  cases e with
  | report seq device result =>
      have hseq : seq = r.seq := by
        rw [tells, Bool.and_eq_true, Bool.and_eq_true, Bool.and_eq_true, beq_iff_eq] at htells
        exact htells.1.1.1
      subst hseq
      have hdone : (p.record device result).isComplete = true :=
        (h.isComplete_record device result).trans htells
      refine Or.inr ⟨htells, (p.record device result).results, ?_, fun other => ?_, hall⟩
      · rw [h.view_handle, View.after_report, hdone, if_pos rfl, p.callback_record, h.callback]
        rfl
      · -- with all devices in, none is left to have timed out
        rw [h.get?_record]
        by_cases hin : other ∈ r.devices
        · obtain ⟨got, hgot⟩ := Option.isSome_iff_exists.mp (hall Event.noConfusion other hin)
          rw [if_pos hin, if_pos hin, hgot, Option.getD_some]
        · rw [if_neg hin, if_neg hin]
  | expire =>
      have hdue : p.deadline ≤ c.clock := h.due_iff.mpr (of_decide_eq_true htells)
      have hview : View.after ⟨some p, []⟩ r.seq c.clock .expire
          = View.finish ⟨some p, []⟩ r.seq p.giveUp := if_pos hdue
      refine Or.inr ⟨htells, p.giveUp.results, ?_, fun device => ?_, hall⟩
      · rw [h.view_handle, hview, View.finish, p.callback_giveUp, h.callback]
        rfl
      · rw [PendingSync.get?_giveUp, h.contains_devices, h.results, reported?_concat]
        by_cases hin : device ∈ r.devices
        · simp [hin, result?]
        · simp [hin]
  | _ => cases htells

/-- A request that is withdrawn is no longer pending, and nobody is told. -/
theorem Awaits.withdrawn (h : r.Awaits before c p) {e : Event} (hwithdraws : r.withdraws e = true) :
    r.Ended before e ((c.handle e).view r.seq) := by
  refine Or.inl ⟨hwithdraws, ?_⟩
  rw [h.view_handle]
  cases e with
  | cancel seq =>
      have hseq : seq = r.seq := by simpa [withdraws] using hwithdraws
      exact if_pos hseq
  | shutdown => rfl
  | _ => cases hwithdraws

end

end Asked

/-! ## Runs -/

/-- Nothing becomes of a request that is not pending. -/
theorem View.after_ended (l : List FinishedSync) (seq clock : Nat) (e : Event) :
    (View.mk none l).after seq clock e = ⟨none, l⟩ := by
  cases e with
  | cancel seq' =>
      rw [View.after]
      split <;> rfl
  | _ => rfl

/-- A request that has its number and is not pending stays as it is. -/
theorem view_run_of_ended {c : Coordinator} {seq : Nat} {l : List FinishedSync}
    (hview : c.view seq = ⟨none, l⟩) (hold : seq < c.nextSeq) (es : List Event) :
    (c.run es).view seq = ⟨none, l⟩ := by
  induction es generalizing c with
  | nil => exact hview
  | cons e es ih =>
      refine ih ?_ (Nat.lt_of_lt_of_le hold (c.nextSeq_le_handle e))
      rw [view_handle c (begun?_ne_of_lt hold e), hview, View.after_ended]

namespace Asked

variable {r : Asked} {before : List Event} {c : Coordinator} {p : PendingSync}

/-- A request that no event ends is waited for. -/
theorem Awaits.run (h : r.Awaits before c p) {es : List Event}
    (hopen : r.ending? before es = none) : ∃ p', r.Awaits (before ++ es) (c.run es) p' := by
  induction es generalizing before c p with
  | nil => exact ⟨p, by rw [List.append_nil]; exact h⟩
  | cons e es ih =>
      rw [ending?] at hopen
      split at hopen
      · cases hopen
      · rename_i hends
        rw [Bool.or_eq_true, not_or, Bool.not_eq_true, Bool.not_eq_true] at hends
        obtain ⟨p', h'⟩ := h.step hends.1 hends.2
        obtain ⟨p'', h''⟩ := ih h' hopen
        rw [List.append_assoc, List.singleton_append] at h''
        exact ⟨p'', h''⟩

/-- A request is waited for up to the first event that ends it, and nothing is told after that. -/
theorem Awaits.run_to_end (h : r.Awaits before c p) {es before' : List Event} {e : Event}
    (hend : r.ending? before es = some (before', e)) :
    r.Ended before' e ((c.run es).view r.seq) := by
  induction es generalizing before c p with
  | nil => cases hend
  | cons e' es ih =>
      rw [ending?] at hend
      split at hend
      · rename_i hends
        cases hend
        -- this event ends the request, and the events that are left find it ended
        have hended : r.Ended before' e ((c.handle e).view r.seq) :=
          (Bool.or_eq_true_iff.mp hends).elim h.told h.withdrawn
        obtain ⟨l, hview, -⟩ := hended.exists_view
        have hold := Nat.lt_of_lt_of_le h.old (c.nextSeq_le_handle e)
        show r.Ended before' e (((c.handle e).run es).view r.seq)
        rw [view_run_of_ended hview hold es, ← hview]
        exact hended
      · rename_i hends
        rw [Bool.or_eq_true, not_or, Bool.not_eq_true, Bool.not_eq_true] at hends
        obtain ⟨p', h'⟩ := h.step hends.1 hends.2
        exact ih h' hend

/-- A coordinator waits for a request that has just become pending. -/
theorem awaits_of_view (hview : c.view r.seq = ⟨some p, []⟩) (hold : r.seq < c.nextSeq)
    (hdevices : r.devices ≠ [])
    (hp : p = { devices := KeySet.ofList r.devices, deadline := p.deadline
                callback := r.callback })
    (hallowance : r.allowance = p.deadline - c.clock) : r.Awaits [] c p where
  view := hview
  old := hold
  devices := by rw [hp]
  callback := by rw [hp]
  deadline := ⟨c.clock, rfl, hallowance⟩
  results device := by
    rw [hp]
    exact (ite_self _).symm
  waits := by
    obtain ⟨device, hdevice⟩ := List.exists_mem_of_ne_nil _ hdevices
    rw [hp]
    exact {
      known := fun _ hgot => by cases hgot
      missing := ⟨device, (KeySet.contains_ofList ..).trans (decide_eq_true hdevice), rfl⟩ }

/-- A coordinator begins to wait for a request when it has begun it. -/
theorem awaits_of_begun? {e : Event} (hbegun : c.begun? e = some r)
    (hnew : c.finished.filter (·.seq == c.nextSeq) = []) :
    ∃ p, r.Awaits [] (c.handle e) p := by
  obtain ⟨hdevices, hseq, hhandle⟩ := begun?_eq_some hbegun
  rw [hhandle]
  refine ⟨{ devices := KeySet.ofList r.devices, deadline := c.clock + r.allowance,
            callback := r.callback }, awaits_of_view ?_ ?_ hdevices rfl ?_⟩
  · rw [hseq, view, hnew]
    exact congrArg (View.mk · []) (Table.get?_insert_self ..)
  · exact hseq ▸ Nat.lt_succ_self _
  · exact (Nat.add_sub_cancel_left ..).symm

end Asked

/-- No request has a number that was not given yet. -/
def Fresh (c : Coordinator) : Prop := ∀ seq, c.nextSeq ≤ seq → c.view seq = ⟨none, []⟩

theorem Fresh.handle {c : Coordinator} (h : c.Fresh) (e : Event) : (c.handle e).Fresh := by
  intro seq hseq
  have hother (r : Asked) (hbegun : c.begun? e = some r) : r.seq ≠ seq := by
    rw [(c.handle_rest e).2, hbegun] at hseq
    rw [(begun?_eq_some hbegun).2.1]
    exact Nat.ne_of_lt hseq
  rw [view_handle c hother, h seq (Nat.le_trans (c.nextSeq_le_handle e) hseq), View.after_ended]

/-! ## The watchdog -/

/-- The watchdog sleeps no longer than up to the deadline of any pending request. -/
theorem nextDeadline?_le {c : Coordinator} {seq : Nat} {p : PendingSync}
    (h : c.pending.get? seq = some p) : ∃ t, c.nextDeadline? = some t ∧ t ≤ p.deadline := by
  have hmem : p.deadline ∈ c.pending.toList.map (·.2.deadline) :=
    List.mem_map.mpr ⟨(seq, p), (c.pending.mem_toList_iff seq p).mpr h, rfl⟩
  obtain ⟨t, ht⟩ := Option.isSome_iff_exists.mp (List.isSome_min?_of_mem hmem)
  exact ⟨t, ht, (List.min?_eq_some_iff.mp ht).2 _ hmem⟩

/-- After the watchdog's turn no request is pending whose deadline has come. -/
theorem lt_deadline_of_expire {c : Coordinator} {seq : Nat} {p : PendingSync}
    (h : c.expire.pending.get? seq = some p) : c.clock < p.deadline := by
  have hview := congrArg View.pending (c.view_expire seq)
  rw [show (c.expire.view seq).pending = some p from h] at hview
  cases hp : c.pending.get? seq with
  | none =>
      rw [hp] at hview
      exact absurd (hview.trans hp) (Option.some_ne_none p)
  | some p' =>
      rw [hp] at hview
      dsimp only at hview
      split at hview
      · cases hview
      · rename_i hdeadline
        have heq : some p = some p' := hview.trans hp
        cases heq
        exact Nat.lt_of_not_le hdeadline

end PeerStore.Coordinator
