import PeerStore.Proofs.Sync.Pending

/-!
# One request of many

Events at a coordinator come in any order and concern any requests. What the coordinator holds of
one request (`Coordinator.view`) follows from what it held of it, the time and the event, whatever
the other requests are (**`Coordinator.view_handle`**), and stays as it is under events that do not
concern it (**`Coordinator.view_handle_of_not_concerned`**).
-/

set_option autoImplicit false

namespace PeerStore.Coordinator

/-- What can happen at a coordinator whose callers take turns: a start and a shutdown are one event
each. -/
inductive Event where
  | start (store : String) (devices : List String) (mode : SyncMode) (query : Option Query)
      (delay : Nat) (callback : Option String)
  /-- A report, made to the coordinator or through the handle that came with the request. -/
  | report (seq : Nat) (device : String) (result : SyncResult)
  | cancel (seq : Nat)
  | elapse (milliseconds : Nat)
  /-- The watchdog gives up what is due. -/
  | expire
  | shutdown

/-- The coordinator after an event. A request that is refused changes nothing. -/
def handle (c : Coordinator) : Event → Coordinator
  | .start store devices mode query delay callback =>
      match c.start store devices mode query delay callback with
      | .ok (_, c') => c'
      | .error _ => c
  | .report seq device result => c.report seq device result
  | .cancel seq => (c.cancel seq).2
  | .elapse milliseconds => c.elapse milliseconds
  | .expire => c.expire
  | .shutdown => c.shutdown

/-- The coordinator after events, one after the other. -/
def run (c : Coordinator) (events : List Event) : Coordinator := events.foldl handle c

/-! ## Requests begun -/

/-- A request that was begun: its number, its devices, the time it is given, and who is told. -/
structure Asked where
  seq : Nat
  devices : List String
  allowance : Nat
  callback : Option String

/-- The request that an event begins. -/
def begun? (c : Coordinator) : Event → Option Asked
  | .start store devices mode query delay callback =>
      match c.start store devices mode query delay callback with
      | .ok (request, _) => some ⟨request.seq, devices, delay + c.timeout, callback⟩
      | .error _ => none
  | _ => none

/-- Requests are let in that are for some device, until the coordinator is stopped. -/
theorem accept_eq_ok_iff {c : Coordinator} {devices : List String} :
    c.accept devices = .ok () ↔ devices ≠ [] ∧ c.stopped = false := by
  rw [accept]
  cases devices with
  | nil => simp
  | cons d ds => cases c.stopped <;> simp

theorem start_eq_ok {c c' : Coordinator} {store : String} {devices : List String} {mode : SyncMode}
    {query : Option Query} {delay : Nat} {callback : Option String} {request : SyncRequest}
    (h : c.start store devices mode query delay callback = .ok (request, c')) :
    devices ≠ [] ∧ request.seq = c.nextSeq
      ∧ c' = { c with
          nextSeq := c.nextSeq + 1
          pending := c.pending.insert c.nextSeq
            { devices := KeySet.ofList devices
              deadline := c.clock + delay + c.timeout
              callback } } := by
  rw [start] at h
  split at h
  · cases h
  · rename_i haccept
    cases h
    exact ⟨(accept_eq_ok_iff.mp haccept).1, rfl, rfl⟩

/-- A request that is begun is for some device and takes the next number. It is then pending, and
has no results. -/
theorem begun?_eq_some {c : Coordinator} {e : Event} {r : Asked} (h : c.begun? e = some r) :
    r.devices ≠ [] ∧ r.seq = c.nextSeq
      ∧ c.handle e = { c with
          nextSeq := c.nextSeq + 1
          pending := c.pending.insert c.nextSeq
            { devices := KeySet.ofList r.devices
              deadline := c.clock + r.allowance
              callback := r.callback } } := by
  cases e with
  | start store devices mode query delay callback =>
      rw [begun?] at h
      split at h
      · rename_i request c' hstart
        cases h
        obtain ⟨hdevices, hseq, rfl⟩ := start_eq_ok hstart
        refine ⟨hdevices, hseq, ?_⟩
        rw [handle, hstart, ← Nat.add_assoc]
      · cases h
  | _ => cases h

/-- A request that is refused changes nothing. -/
theorem handle_of_refused {c : Coordinator} {store : String} {devices : List String}
    {mode : SyncMode} {query : Option Query} {delay : Nat} {callback : Option String}
    (h : c.begun? (.start store devices mode query delay callback) = none) :
    c.handle (.start store devices mode query delay callback) = c := by
  rw [handle]
  split
  · rename_i hstart
    rw [begun?, hstart] at h
    cases h
  · rfl

/-! ## Views -/

/-- What a coordinator holds of one request: the request, while it is pending, and the records of
its end, each of which is a call of its callback if it has one. -/
structure View where
  pending : Option PendingSync
  finished : List FinishedSync

/-- The view in which a request is finished. -/
def View.finish (v : View) (seq : Nat) (p : PendingSync) : View :=
  ⟨none, v.finished ++ [⟨seq, p.callback, p.results⟩]⟩

/-- What a coordinator holds of the request with a number. -/
def view (c : Coordinator) (seq : Nat) : View :=
  ⟨c.pending.get? seq, c.finished.filter (·.seq == seq)⟩

theorem view_finish_self (c : Coordinator) (seq : Nat) (p : PendingSync) :
    (c.finish seq p).view seq = (c.view seq).finish seq p := by
  simp [view, finish, View.finish, Table.get?_erase_self]

theorem view_finish_of_ne (c : Coordinator) {seq seq' : Nat} (h : seq' ≠ seq) (p : PendingSync) :
    (c.finish seq' p).view seq = c.view seq := by
  simp [view, finish, Table.get?_erase_of_ne _ h, h]

/-- The view of a request after a change of the table of pending requests. -/
theorem view_insert (c : Coordinator) (seq seq' : Nat) (p : PendingSync) :
    ({ c with pending := c.pending.insert seq' p } : Coordinator).view seq
      = if seq' = seq then { c.view seq with pending := some p } else c.view seq := by
  by_cases h : seq' = seq
  · subst h
    simp [view, Table.get?_insert_self]
  · simp [view, Table.get?_insert_of_ne _ _ h, h]

theorem view_erase (c : Coordinator) (seq seq' : Nat) :
    ({ c with pending := c.pending.erase seq' } : Coordinator).view seq
      = if seq' = seq then { c.view seq with pending := none } else c.view seq := by
  by_cases h : seq' = seq
  · subst h
    simp [view, Table.get?_erase_self]
  · simp [view, Table.get?_erase_of_ne _ h, h]

/-! ## What is due -/

/-- What is due are the pending requests whose deadline has come. -/
theorem mem_due_iff (c : Coordinator) (seq : Nat) (p : PendingSync) :
    (seq, p) ∈ c.due ↔ c.pending.get? seq = some p ∧ p.deadline ≤ c.clock := by
  rw [due, List.mem_filter, Table.mem_toList_iff, decide_eq_true_iff]

theorem nodup_due (c : Coordinator) : (c.due.map (·.1)).Nodup :=
  c.pending.nodup_keys.sublist (List.filter_sublist.map _)

section Turns

variable {seq : Nat} {turn : Coordinator → Nat × PendingSync → Coordinator}
  {g : View → PendingSync → View}

theorem view_foldl_of_not_mem
    (hother : ∀ c e, e.1 ≠ seq → (turn c e).view seq = c.view seq) {es : List (Nat × PendingSync)}
    (h : seq ∉ es.map (·.1)) (c : Coordinator) : (es.foldl turn c).view seq = c.view seq := by
  induction es generalizing c with
  | nil => rfl
  | cons e es ih =>
      rw [List.map_cons, List.mem_cons, not_or] at h
      exact (ih h.2 _).trans (hother c e (Ne.symm h.1))

/-- A request whose turn comes among others has one turn. -/
theorem view_foldl_of_mem
    (hself : ∀ c p, (turn c (seq, p)).view seq = g (c.view seq) p)
    (hother : ∀ c e, e.1 ≠ seq → (turn c e).view seq = c.view seq) {p : PendingSync}
    {es : List (Nat × PendingSync)} (hnodup : (es.map (·.1)).Nodup) (hmem : (seq, p) ∈ es)
    (c : Coordinator) : (es.foldl turn c).view seq = g (c.view seq) p := by
  induction es generalizing c with
  | nil => cases hmem
  | cons e es ih =>
      obtain ⟨hnew, hrest⟩ := List.nodup_cons.mp hnodup
      -- no number comes twice, so the turns of the other requests leave this one alone
      rcases List.mem_cons.mp hmem with rfl | hmem
      · exact (view_foldl_of_not_mem hother hnew _).trans (hself c p)
      · have hne : e.1 ≠ seq := fun heq =>
          hnew (List.mem_map.mpr ⟨(seq, p), hmem, heq.symm⟩)
        exact (ih hrest hmem _).trans (by rw [hother c e hne])

/-- **A request has a turn exactly if its deadline has come.** -/
theorem view_foldl_due
    (hself : ∀ c p, (turn c (seq, p)).view seq = g (c.view seq) p)
    (hother : ∀ c e, e.1 ≠ seq → (turn c e).view seq = c.view seq) (c : Coordinator) :
    (c.due.foldl turn c).view seq
      = match c.pending.get? seq with
        | none => c.view seq
        | some p => if p.deadline ≤ c.clock then g (c.view seq) p else c.view seq := by
  have hnone (h : ∀ p, c.pending.get? seq = some p → ¬p.deadline ≤ c.clock) :
      (c.due.foldl turn c).view seq = c.view seq := by
    refine view_foldl_of_not_mem hother (fun hmem => ?_) c
    obtain ⟨⟨seq, p⟩, hdue, rfl⟩ := List.mem_map.mp hmem
    obtain ⟨hp, hdeadline⟩ := (mem_due_iff c seq p).mp hdue
    exact h p hp hdeadline
  cases hp : c.pending.get? seq with
  | none => exact hnone fun p hp' => by rw [hp] at hp'; cases hp'
  | some p =>
      dsimp only
      split
      · rename_i hdeadline
        exact view_foldl_of_mem hself hother c.nodup_due
          ((mem_due_iff c seq p).mpr ⟨hp, hdeadline⟩) c
      · rename_i hdeadline
        refine hnone fun p' hp' => ?_
        rw [hp] at hp'
        cases hp'
        exact hdeadline

end Turns

/-- **The watchdog gives up a request exactly if its deadline has come.** -/
theorem view_expire (c : Coordinator) (seq : Nat) :
    c.expire.view seq
      = match c.pending.get? seq with
        | none => c.view seq
        | some p =>
            if p.deadline ≤ c.clock then (c.view seq).finish seq p.giveUp else c.view seq :=
  view_foldl_due (g := fun v p => v.finish seq p.giveUp)
    (fun c p => view_finish_self c seq p.giveUp) (fun c e hne => view_finish_of_ne c hne e.2.giveUp)
    c

/-- Whether the deadline of a pending request has come. -/
def isDue (c : Coordinator) (seq : Nat) : Bool :=
  (c.pending.get? seq).any fun p => p.deadline ≤ c.clock

theorem view_expire_of_not_due {c : Coordinator} {seq : Nat} (h : c.isDue seq = false) :
    c.expire.view seq = c.view seq := by
  rw [isDue] at h
  rw [view_expire]
  cases hp : c.pending.get? seq with
  | none => rfl
  | some p =>
      rw [hp, Option.any_some, decide_eq_false_iff_not] at h
      exact if_neg h

/-! ## One step -/

/-- What becomes of the view of a request that has its number when an event comes at a time. -/
def View.after (v : View) (seq clock : Nat) : Event → View
  | .report seq' device result =>
      match v.pending with
      | none => v
      | some p =>
          if seq' = seq then
            if (p.record device result).isComplete then v.finish seq (p.record device result)
            else { v with pending := some (p.record device result) }
          else v
  | .cancel seq' => if seq' = seq then { v with pending := none } else v
  | .expire =>
      match v.pending with
      | none => v
      | some p => if p.deadline ≤ clock then v.finish seq p.giveUp else v
  | .shutdown => { v with pending := none }
  | .start .. | .elapse _ => v

theorem View.after_report (p : PendingSync) (l : List FinishedSync) (seq clock : Nat)
    (device : String) (result : SyncResult) :
    View.after ⟨some p, l⟩ seq clock (.report seq device result)
      = if (p.record device result).isComplete then
          ⟨none, l ++ [⟨seq, (p.record device result).callback, (p.record device result).results⟩]⟩
        else ⟨some (p.record device result), l⟩ :=
  if_pos rfl

theorem view_report (c : Coordinator) (seq seq' : Nat) (device : String) (result : SyncResult) :
    (c.report seq' device result).view seq
      = (c.view seq).after seq c.clock (.report seq' device result) := by
  show _ = match c.pending.get? seq with
    | none => c.view seq
    | some p =>
        if seq' = seq then
          if (p.record device result).isComplete then
            (c.view seq).finish seq (p.record device result)
          else { c.view seq with pending := some (p.record device result) }
        else c.view seq
  rw [report]
  by_cases heq : seq' = seq
  · subst heq
    cases hp : c.pending.get? seq' with
    | none => rfl
    | some p =>
        dsimp only
        rw [if_pos rfl]
        split
        · exact view_finish_self c seq' _
        · rw [view_insert, if_pos rfl]
  · -- the report may finish or change another request, but not this one
    have hother : (match c.pending.get? seq' with
        | none => c
        | some p =>
            if (p.record device result).isComplete then c.finish seq' (p.record device result)
            else { c with pending := c.pending.insert seq' (p.record device result) }).view seq
        = c.view seq := by
      split
      · rfl
      · split
        · exact view_finish_of_ne c heq _
        · rw [view_insert, if_neg heq]
    refine hother.trans ?_
    split
    · rfl
    · rw [if_neg heq]

/-- **What becomes of a request**, but for its own start, does not depend on the other requests. -/
theorem view_handle (c : Coordinator) {seq : Nat} {e : Event}
    (hother : ∀ r, c.begun? e = some r → r.seq ≠ seq) :
    (c.handle e).view seq = (c.view seq).after seq c.clock e := by
  cases e with
  | start store devices mode query delay callback =>
      cases hbegun : c.begun? (.start store devices mode query delay callback) with
      | none => rw [handle_of_refused hbegun]; rfl
      | some r =>
          obtain ⟨-, hseq, hhandle⟩ := begun?_eq_some hbegun
          rw [hhandle]
          exact (view_insert c seq c.nextSeq _).trans (if_neg (hseq ▸ hother r hbegun))
  | report seq' device result => exact view_report c seq seq' device result
  | cancel seq' => exact view_erase c seq seq'
  | elapse milliseconds => rfl
  | expire => exact view_expire c seq
  | shutdown => rfl

/-- Whether an event concerns a request: the start that gives it its number, its report, its
cancellation, the watchdog when it is due, and shutdown. -/
def concerns (c : Coordinator) (seq : Nat) : Event → Bool
  | e@(.start ..) => (c.begun? e).any (·.seq == seq)
  | .report seq' .. => seq' == seq
  | .cancel seq' => seq' == seq
  | .elapse _ => false
  | .expire => c.isDue seq
  | .shutdown => true

/-- **An event changes nothing about the requests that it does not concern.** -/
theorem view_handle_of_not_concerned {c : Coordinator} {seq : Nat} {e : Event}
    (h : c.concerns seq e = false) : (c.handle e).view seq = c.view seq := by
  cases e with
  | start store devices mode query delay callback =>
      refine view_handle c fun r hbegun heq => ?_
      rw [concerns, hbegun, Option.any_some, heq, beq_self_eq_true] at h
      cases h
  | report seq' device result =>
      have hne : seq' ≠ seq := by simpa [concerns] using h
      refine (view_report c seq seq' device result).trans ?_
      rw [View.after]
      split
      · rfl
      · rw [if_neg hne]
  | cancel seq' =>
      have hne : seq' ≠ seq := by simpa [concerns] using h
      exact (view_erase c seq seq').trans (if_neg hne)
  | elapse milliseconds => rfl
  | expire => exact view_expire_of_not_due h
  | shutdown => cases h

/-! ## Beside the requests -/

/-- Whether two coordinators differ in their requests at most. -/
structure Beside (c c' : Coordinator) : Prop where
  clock : c'.clock = c.clock
  nextSeq : c'.nextSeq = c.nextSeq
  timeout : c'.timeout = c.timeout
  stopped : c'.stopped = c.stopped

theorem Beside.refl (c : Coordinator) : c.Beside c := ⟨rfl, rfl, rfl, rfl⟩

theorem Beside.trans {c c' c'' : Coordinator} (h : c.Beside c') (h' : c'.Beside c'') :
    c.Beside c'' :=
  ⟨h'.clock.trans h.clock, h'.nextSeq.trans h.nextSeq, h'.timeout.trans h.timeout,
    h'.stopped.trans h.stopped⟩

theorem Beside.foldl {turn : Coordinator → Nat × PendingSync → Coordinator}
    (hturn : ∀ (c : Coordinator) e, c.Beside (turn c e)) (es : List (Nat × PendingSync))
    (c : Coordinator) : c.Beside (es.foldl turn c) := by
  induction es generalizing c with
  | nil => exact .refl c
  | cons e es ih => exact (hturn c e).trans (ih (turn c e))

theorem beside_finish (c : Coordinator) (seq : Nat) (p : PendingSync) :
    c.Beside (c.finish seq p) := ⟨rfl, rfl, rfl, rfl⟩

theorem beside_cancel (c : Coordinator) (seq : Nat) : c.Beside (c.cancel seq).2 :=
  ⟨rfl, rfl, rfl, rfl⟩

theorem beside_report (c : Coordinator) (seq : Nat) (device : String) (result : SyncResult) :
    c.Beside (c.report seq device result) := by
  rw [report]
  split
  · exact .refl c
  · dsimp only
    split <;> exact ⟨rfl, rfl, rfl, rfl⟩

theorem beside_expire (c : Coordinator) : c.Beside c.expire :=
  .foldl (fun c e => beside_finish c e.1 e.2.giveUp) c.due c

/-- The time that passes with an event. -/
def Event.milliseconds : Event → Nat
  | .elapse milliseconds => milliseconds
  | _ => 0

/-- An event takes its time, and numbers are not given back. -/
theorem handle_rest (c : Coordinator) (e : Event) :
    (c.handle e).clock = c.clock + e.milliseconds
      ∧ (c.handle e).nextSeq = c.nextSeq + (c.begun? e).toList.length := by
  cases e with
  | start store devices mode query delay callback =>
      cases hbegun : c.begun? (.start store devices mode query delay callback) with
      | none =>
          rw [handle_of_refused hbegun]
          exact ⟨rfl, rfl⟩
      | some r =>
          rw [(begun?_eq_some hbegun).2.2]
          exact ⟨rfl, rfl⟩
  | report seq device result =>
      have h := c.beside_report seq device result
      exact ⟨h.clock, h.nextSeq⟩
  | expire => exact ⟨c.beside_expire.clock, c.beside_expire.nextSeq⟩
  | _ => exact ⟨rfl, rfl⟩

end PeerStore.Coordinator
