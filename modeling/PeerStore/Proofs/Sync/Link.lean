import PeerStore.Proofs.Sync.Run

/-!
# Requests and their transport

A request is registered before the transport is handed it, and the transport may report at once. So
a start on a link is a few events at its coordinator: the start, the reports, and a cancellation if
the transport refuses (`Reply.events`, **`SyncLink.start_eq`**). A start that fails leaves a number
behind at most, under which nobody is ever told anything (`SyncLink.Unused`). One that succeeds has
handed one request over, which waits exactly as long as one of its devices has not reported
(`SyncLink.Took`).
-/

set_option autoImplicit false

namespace PeerStore

namespace Coordinator

/-! ## States of a coordinator -/

/-- Whether events lead to a coordinator from its creation. -/
def Reached (c : Coordinator) : Prop := ∃ timeout es, c = run { timeout } es

theorem Fresh.run {c : Coordinator} (h : c.Fresh) (es : List Event) : (c.run es).Fresh := by
  induction es generalizing c with
  | nil => exact h
  | cons e es ih => exact ih (h.handle e)

theorem Reached.fresh {c : Coordinator} (h : c.Reached) : c.Fresh := by
  obtain ⟨timeout, es, rfl⟩ := h
  have hnew : Fresh { timeout } := fun _ _ => rfl
  exact hnew.run es

/-- Nothing but shutdown stops a coordinator. -/
theorem stopped_handle (c : Coordinator) {e : Event} (h : e ≠ .shutdown) :
    (c.handle e).stopped = c.stopped := by
  cases e with
  | start store devices mode query delay callback =>
      cases hbegun : c.begun? (.start store devices mode query delay callback) with
      | none => rw [handle_of_refused hbegun]
      | some r => rw [(begun?_eq_some hbegun).2.2]
  | report seq device result => exact (c.beside_report seq device result).stopped
  | expire => exact c.beside_expire.stopped
  | shutdown => exact absurd rfl h
  | cancel | elapse => rfl

theorem stopped_run {c : Coordinator} {es : List Event} (h : .shutdown ∉ es) :
    (c.run es).stopped = c.stopped := by
  induction es generalizing c with
  | nil => rfl
  | cons e es ih =>
      rw [List.mem_cons, not_or] at h
      exact (ih h.2).trans (c.stopped_handle (Ne.symm h.1))

/-- Events that do not concern a request leave it alone, one after the other. -/
theorem view_run_of_others {c : Coordinator} {seq : Nat} {es : List Event}
    (h : ∀ e ∈ es, ∀ c : Coordinator, c.concerns seq e = false) :
    (c.run es).view seq = c.view seq := by
  induction es generalizing c with
  | nil => rfl
  | cons e es ih =>
      have hrest : ∀ e' ∈ es, ∀ c : Coordinator, c.concerns seq e' = false := fun e' he' =>
        h e' (List.mem_cons_of_mem e he')
      exact (ih hrest).trans (view_handle_of_not_concerned (h e List.mem_cons_self c))

/-! ## A request and its first reports -/

/-- The reports of one request. -/
def reportsOf (seq : Nat) (reports : List (String × SyncResult)) : List Event :=
  reports.map fun r => .report seq r.1 r.2

namespace Asked

/-- The event that ends a request is one of those that come. -/
theorem mem_of_ending? {r : Asked} {before before' es : List Event} {e : Event}
    (h : r.ending? before es = some (before', e)) :
    e ∈ es ∧ ∃ after, before ++ es = before' ++ [e] ++ after := by
  induction es generalizing before with
  | nil => cases h
  | cons e' es ih =>
      rw [ending?] at h
      split at h
      · cases h
        exact ⟨List.mem_cons_self, es, by simp⟩
      · obtain ⟨hmem, after, hafter⟩ := ih h
        refine ⟨List.mem_cons_of_mem e' hmem, after, ?_⟩
        rw [← hafter]
        simp

/-- What is reported first is not changed by what comes later. -/
theorem isSome_reported?_append {r : Asked} {device : String} {es : List Event}
    (h : (r.reported? device es).isSome = true) (after : List Event) :
    (r.reported? device (es ++ after)).isSome = true := by
  rw [reported?, List.findSome?_append, Option.isSome_or]
  exact Bool.or_eq_true_iff.mpr (.inl h)

theorem isSome_reported?_reportsOf (r : Asked) (device : String)
    (reports : List (String × SyncResult)) :
    (r.reported? device (reportsOf r.seq reports)).isSome = true
      ↔ device ∈ reports.map (·.1) := by
  rw [reported?, reportsOf, List.isSome_findSome?]
  simp [result?]

/-- **After its first reports a request is pending exactly if a device is missing.** -/
theorem Awaits.pending_iff {r : Asked} {c : Coordinator} {p : PendingSync} (h : r.Awaits [] c p)
    (reports : List (String × SyncResult)) :
    ((c.run (reportsOf r.seq reports)).pending.get? r.seq).isSome = true
      ↔ ∃ device ∈ r.devices, device ∉ reports.map (·.1) := by
  have hreported := fun device => r.isSome_reported?_reportsOf device reports
  cases hend : r.ending? [] (reportsOf r.seq reports) with
  | none =>
      obtain ⟨p', hawaits⟩ := h.run hend
      have hview : (c.run (reportsOf r.seq reports)).pending.get? r.seq = some p' :=
        congrArg View.pending hawaits.view
      -- a request that waits has a device without a result, so without a report
      obtain ⟨device, hdevice, hnone⟩ := hawaits.waits.missing
      rw [hawaits.contains_devices, decide_eq_true_iff] at hdevice
      rw [Table.contains, hawaits.results, if_pos hdevice, List.nil_append] at hnone
      rw [hview]
      refine iff_of_true rfl ⟨device, hdevice, fun hin => ?_⟩
      rw [(hreported device).mpr hin] at hnone
      cases hnone
  | some ended =>
      obtain ⟨before, e⟩ := ended
      obtain ⟨hmem, after, hsplit⟩ := mem_of_ending? hend
      obtain ⟨report, -, rfl⟩ := List.mem_map.mp hmem
      obtain ⟨hwithdraws, -⟩ | ⟨-, results, hview, -, hall⟩ := h.run_to_end hend
      · cases hwithdraws
      · have hnone : (c.run (reportsOf r.seq reports)).pending.get? r.seq = none :=
          congrArg View.pending hview
        rw [hnone]
        refine iff_of_false Bool.false_ne_true ?_
        rintro ⟨device, hdevice, hmissing⟩
        -- the event that told the callback was the report of the last device
        have hsome := isSome_reported?_append (hall Event.noConfusion device hdevice) after
        rw [← hsplit, List.nil_append] at hsome
        exact hmissing ((hreported device).mp hsome)

end Asked

end Coordinator

/-! ## What a transport makes of a request -/

/-- What a coordinator hears while a transport is handed the request with a number: reports, and a
cancellation if the request is refused. -/
def Reply.events (reply : Reply) (seq : Nat) : List Coordinator.Event :=
  Coordinator.reportsOf seq reply.reports ++ if reply.outcome.isOk then [] else [.cancel seq]

theorem Reply.shutdown_not_mem_events (reply : Reply) (seq : Nat) :
    .shutdown ∉ reply.events seq := by
  rw [Reply.events, List.mem_append, not_or]
  refine ⟨fun hmem => ?_, fun hmem => ?_⟩
  · obtain ⟨report, -, hreport⟩ := List.mem_map.mp hmem
    cases hreport
  · split at hmem
    · cases hmem
    · cases List.mem_singleton.mp hmem

namespace SyncLink

/-- The request that a link hands over next. -/
def request (p : SyncLink) (store : String) (devices : List String) (mode : SyncMode)
    (query : Option Query) : SyncRequest :=
  ⟨p.coordinator.nextSeq, store, devices, mode, query⟩

/-- Whether a link registers requests for some devices. -/
def Registers (p : SyncLink) (devices : List String) : Prop :=
  devices ≠ [] ∧ p.coordinator.stopped = false

variable {p p' : SyncLink} {store : String} {devices : List String} {mode : SyncMode}
  {query : Option Query} {delay : Nat} {callback : Option String}

/-- A link that registers no request does nothing. -/
theorem start_of_not_registers (h : ¬p.Registers devices) (store : String) (mode : SyncMode)
    (query : Option Query) (delay : Nat) (callback : Option String) :
    ∃ e, p.start store devices mode query delay callback = (.error e, p) := by
  have hrefused : ∃ e, p.coordinator.start store devices mode query delay callback = .error e := by
    rw [Coordinator.start]
    split
    · exact ⟨_, rfl⟩
    · rename_i haccept
      exact absurd (Coordinator.accept_eq_ok_iff.mp haccept) h
  obtain ⟨e, he⟩ := hrefused
  exact ⟨e, by rw [start, he]⟩

theorem coordinator_start_of_registers (h : p.Registers devices) (store : String)
    (mode : SyncMode) (query : Option Query) (delay : Nat) (callback : Option String) :
    p.coordinator.start store devices mode query delay callback
      = .ok (p.request store devices mode query,
          p.coordinator.handle (.start store devices mode query delay callback)) := by
  have hsome : ¬devices.isEmpty = true := fun hnil => h.1 (List.isEmpty_iff.mp hnil)
  have hrunning : ¬p.coordinator.stopped = true := Bool.eq_false_iff.mp h.2
  obtain ⟨c, hstart⟩ : ∃ c, p.coordinator.start store devices mode query delay callback
      = .ok (p.request store devices mode query, c) := by
    rw [Coordinator.start, Coordinator.accept_eq_ok_iff.mpr h]
    exact ⟨_, rfl⟩
  rw [Coordinator.handle, hstart]

/-- **A start on a link is a few events at its coordinator.** The request is handed over once, and
what the transport makes of it is what the start gives. -/
theorem start_eq (h : p.Registers devices) :
    p.start store devices mode query delay callback
      = ((p.transport (p.request store devices mode query)).outcome.map
            fun _ => p.coordinator.nextSeq,
          { p with
            coordinator := p.coordinator.run
              (.start store devices mode query delay callback
                :: (p.transport (p.request store devices mode query)).events p.coordinator.nextSeq)
            handed := p.handed ++ [p.request store devices mode query] }) := by
  rw [start, coordinator_start_of_registers h]
  dsimp only
  -- the reports reach the coordinator one after the other, as a run
  have hreports (c : Coordinator) (seq : Nat) (reports : List (String × SyncResult)) :
      reports.foldl (fun c r => c.report seq r.1 r.2) c
        = c.run (Coordinator.reportsOf seq reports) := by
    rw [Coordinator.run, Coordinator.reportsOf, List.foldl_map]
    rfl
  rw [hreports]
  cases houtcome : (p.transport (p.request store devices mode query)).outcome with
  | ok _ =>
      simp only [Reply.events, houtcome, Coordinator.run, Except.isOk, Except.toBool, if_true,
        List.append_nil, List.foldl_cons]
      rfl
  | error e =>
      -- a refusal is one event more
      simp only [Reply.events, houtcome, Coordinator.run, Except.isOk, Except.toBool,
        Bool.false_eq_true, if_false, List.foldl_cons, List.foldl_append]
      rfl

/-- A start neither stops the coordinator nor changes the transport. -/
theorem start_rest (p : SyncLink) (store : String) (devices : List String) (mode : SyncMode)
    (query : Option Query) (delay : Nat) (callback : Option String) :
    (p.start store devices mode query delay callback).2.coordinator.stopped
        = p.coordinator.stopped
      ∧ (p.start store devices mode query delay callback).2.transport = p.transport := by
  by_cases h : p.Registers devices
  · rw [start_eq h]
    refine ⟨Coordinator.stopped_run ?_, rfl⟩
    rw [List.mem_cons, not_or]
    exact ⟨Coordinator.Event.noConfusion, Reply.shutdown_not_mem_events _ _⟩
  · obtain ⟨e, he⟩ := start_of_not_registers h store mode query delay callback
    rw [he]
    exact ⟨rfl, rfl⟩

/-! ## Starts that fail -/

/-- A link on which a start has failed: the requests that wait and those that are finished are those
from before. Numbers may be used up, and nobody is ever told anything of a request with such a
number, whatever happens later. -/
structure Unused (p p' : SyncLink) : Prop where
  transport : p'.transport = p.transport
  coordinator : p'.coordinator = { p.coordinator with nextSeq := p'.coordinator.nextSeq }
  later : p.coordinator.nextSeq ≤ p'.coordinator.nextSeq
  silent : ∀ seq, p.coordinator.nextSeq ≤ seq → seq < p'.coordinator.nextSeq →
    ∀ es, (p'.coordinator.run es).view seq = ⟨none, []⟩

theorem Unused.refl (p : SyncLink) : p.Unused p :=
  ⟨rfl, rfl, Nat.le_refl _, fun _ hseq hlt => absurd hlt (Nat.not_lt.mpr hseq)⟩

/-- A request that is withdrawn before anybody has reported leaves its number behind. -/
theorem run_start_cancel (hfresh : p.coordinator.Fresh) (h : p.Registers devices) :
    p.coordinator.run
        [.start store devices mode query delay callback, .cancel p.coordinator.nextSeq]
      = { p.coordinator with nextSeq := p.coordinator.nextSeq + 1 } := by
  have hstart := coordinator_start_of_registers h store mode query delay callback
  obtain ⟨-, -, hbegun⟩ := Coordinator.start_eq_ok hstart
  have hnew : p.coordinator.pending.get? p.coordinator.nextSeq = none :=
    congrArg Coordinator.View.pending (hfresh _ (Nat.le_refl _))
  -- the number is new, so that withdrawing it takes away what the start has put there only
  have hpending (q : PendingSync) :
      (p.coordinator.pending.insert p.coordinator.nextSeq q).erase p.coordinator.nextSeq
        = p.coordinator.pending := by
    refine Table.ext fun seq => ?_
    rw [Table.get?_erase, Table.get?_insert]
    by_cases hseq : seq = p.coordinator.nextSeq
    · rw [if_pos hseq, hseq, hnew]
    · rw [if_neg hseq, if_neg hseq]
  show (Coordinator.cancel (p.coordinator.handle _) _).2 = _
  rw [hbegun]
  simp only [Coordinator.cancel, hpending]

/-- **A start that fails leaves no request behind**, if a transport that refuses reports nothing. -/
theorem unused_of_start_error (hfresh : p.coordinator.Fresh)
    (hquiet : ∀ request e, (p.transport request).outcome = .error e →
      (p.transport request).reports = []) {e : Status}
    (h : p.start store devices mode query delay callback = (.error e, p')) : p.Unused p' := by
  by_cases hregisters : p.Registers devices
  · rw [start_eq hregisters] at h
    obtain ⟨hresult, rfl⟩ := Prod.mk.inj h
    cases houtcome : (p.transport (p.request store devices mode query)).outcome with
    | ok _ =>
        rw [houtcome] at hresult
        cases hresult
    | error e' =>
        have hevents : (p.transport (p.request store devices mode query)).events
            p.coordinator.nextSeq = [.cancel p.coordinator.nextSeq] := by
          rw [Reply.events, hquiet _ _ houtcome, houtcome]
          rfl
        rw [hevents, run_start_cancel hfresh hregisters]
        refine ⟨rfl, rfl, Nat.le_succ _, fun seq hseq hlt es => ?_⟩
        exact Coordinator.view_run_of_ended
          (c := { p.coordinator with nextSeq := p.coordinator.nextSeq + 1 })
          (hfresh seq hseq) hlt es
  · obtain ⟨e', he'⟩ := start_of_not_registers hregisters store mode query delay callback
    rw [he'] at h
    obtain ⟨-, rfl⟩ := Prod.mk.inj h
    exact .refl p

/-! ## Starts that succeed -/

/-- A link that has handed a request over, which the transport has taken: it has a new number, and
waits exactly if one of its devices is not among those that were reported at once. The other
requests are as they were. -/
structure Took (p : SyncLink) (request : SyncRequest) (p' : SyncLink) : Prop where
  seq : request.seq = p.coordinator.nextSeq
  transport : p'.transport = p.transport
  handed : p'.handed = p.handed ++ [request]
  pending_iff : (p'.coordinator.pending.get? request.seq).isSome = true
    ↔ ∃ device ∈ request.devices, device ∉ (p.transport request).reports.map (·.1)
  others : ∀ seq, seq ≠ request.seq → p'.coordinator.view seq = p.coordinator.view seq

/-- A link takes exactly the requests that it registers and that its transport takes. -/
theorem start_isOk_iff :
    (p.start store devices mode query delay callback).1.isOk = true
      ↔ p.Registers devices
        ∧ (p.transport (p.request store devices mode query)).outcome = .ok () := by
  by_cases h : p.Registers devices
  · rw [start_eq h]
    cases (p.transport (p.request store devices mode query)).outcome with
    | ok _ => exact iff_of_true rfl ⟨h, rfl⟩
    | error e => exact iff_of_false Bool.false_ne_true fun hboth => by cases hboth.2
  · obtain ⟨e, he⟩ := start_of_not_registers h store mode query delay callback
    rw [he]
    exact iff_of_false Bool.false_ne_true fun hboth => h hboth.1

/-- **A start that succeeds has handed one request over**, with the number that it gives. -/
theorem took_of_start_ok (hfresh : p.coordinator.Fresh) {seq : Nat}
    (h : p.start store devices mode query delay callback = (.ok seq, p')) :
    p.Took ⟨seq, store, devices, mode, query⟩ p' := by
  have hok : (p.start store devices mode query delay callback).1.isOk = true := by
    rw [h]
    rfl
  obtain ⟨hregisters, houtcome⟩ := start_isOk_iff.mp hok
  rw [start_eq hregisters, houtcome] at h
  obtain ⟨hseq, rfl⟩ := Prod.mk.inj h
  cases hseq
  have hevents : (p.transport (p.request store devices mode query)).events p.coordinator.nextSeq
      = Coordinator.reportsOf p.coordinator.nextSeq
          (p.transport (p.request store devices mode query)).reports := by
    rw [Reply.events, houtcome]
    exact List.append_nil _
  have hbegun : p.coordinator.begun? (.start store devices mode query delay callback)
      = some ⟨p.coordinator.nextSeq, devices, delay + p.coordinator.timeout, callback⟩ := by
    rw [Coordinator.begun?, coordinator_start_of_registers hregisters]
    rfl
  have hnew : p.coordinator.finished.filter (·.seq == p.coordinator.nextSeq) = [] :=
    congrArg Coordinator.View.finished (hfresh _ (Nat.le_refl _))
  obtain ⟨q, hawaits⟩ := Coordinator.Asked.awaits_of_begun? hbegun hnew
  rw [hevents]
  refine ⟨rfl, rfl, rfl, ?_, fun other hother => ?_⟩
  · exact hawaits.pending_iff _
  · -- neither the start nor the reports concern another request
    have hstart : p.coordinator.concerns other (.start store devices mode query delay callback)
        = false := by
      rw [Coordinator.concerns, hbegun, Option.any_some]
      exact beq_eq_false_iff_ne.mpr (Ne.symm hother)
    have hreports : ∀ e ∈ Coordinator.reportsOf p.coordinator.nextSeq
        (p.transport (p.request store devices mode query)).reports,
        ∀ c : Coordinator, c.concerns other e = false := by
      intro e he c
      obtain ⟨report, -, rfl⟩ := List.mem_map.mp he
      exact beq_eq_false_iff_ne.mpr (Ne.symm hother)
    exact (Coordinator.view_run_of_others hreports).trans
      (Coordinator.view_handle_of_not_concerned hstart)

end SyncLink

end PeerStore
