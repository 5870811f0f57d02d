import Mathlib.Data.List.Induction
import PeerStore.Proofs.Sync.Threads

/-!
# Requests among threads

Numbers ascend in the order in which starts take them (**`Threads.pairwise_given`**). A start holds
its number until its request is registered, no other start has it, and nothing happens under it
(`Threads.Orderly`). From then on the request is to the threads what it is to a coordinator that
hears the events it sees (**`Threads.view_run`**), so it waits and ends as it does there.
-/

set_option autoImplicit false

namespace PeerStore.Coordinator

/-- What the start was asked for that a thread is in the middle of. -/
def Progress.call? : Progress → Option StartCall
  | .admitted call | .numbered call _ | .dated call _ _ => some call
  | .stopping => none

namespace Threads

variable {s : Threads} {m : Move} {thread seq : Nat}

/-! ## What a move changes beside the requests -/

/-- The number that a move gives away. -/
def given? (s : Threads) : Move → Option Nat
  | .go thread =>
      match s.busy.get? thread with
      | some (.admitted _) => some s.coordinator.nextSeq
      | _ => none
  | _ => none

theorem beside_watch (s : Threads) (crash? : Option Crash) :
    s.coordinator.Beside (s.watch crash?).coordinator := by
  rw [watch]
  split
  · split
    · exact beside_expire s.coordinator
    · exact beside_expireUpTo s.coordinator _
  · exact .refl s.coordinator

/-- A move takes the time that the requests see, and gives the next number away or none. -/
theorem move_rest (s : Threads) (m : Move) (seq : Nat) :
    (s.move m).coordinator.clock
        = s.coordinator.clock + ((s.seen seq m).map Event.milliseconds).getD 0
      ∧ (s.move m).coordinator.nextSeq = s.coordinator.nextSeq + (s.given? m).toList.length
      ∧ (s.move m).coordinator.timeout = s.coordinator.timeout := by
  cases m with
  | start thread call =>
      rw [move]
      split
      · exact ⟨rfl, rfl, rfl⟩
      · split <;> exact ⟨rfl, rfl, rfl⟩
  | shutdown thread =>
      rw [move]
      split <;> exact ⟨rfl, rfl, rfl⟩
  | go thread =>
      rw [move, seen, given?]
      cases s.busy.get? thread with
      | none => exact ⟨rfl, rfl, rfl⟩
      | some progress => cases progress <;> exact ⟨rfl, rfl, rfl⟩
  | report seq' device result =>
      have h := s.coordinator.beside_report seq' device result
      exact ⟨h.clock, h.nextSeq, h.timeout⟩
  | cancel seq' => exact ⟨rfl, rfl, rfl⟩
  | elapse milliseconds => exact ⟨rfl, rfl, rfl⟩
  | watch crash? =>
      have h := s.beside_watch crash?
      refine ⟨h.clock.trans ?_, h.nextSeq, h.timeout⟩
      rw [seen]
      split
      · split <;> rfl
      · rfl

theorem nextSeq_le_move (s : Threads) (m : Move) :
    s.coordinator.nextSeq ≤ (s.move m).coordinator.nextSeq := by
  rw [(s.move_rest m 0).2.1]
  exact Nat.le_add_right ..

/-! ## Numbers -/

/-- The numbers that moves give away, in this order. -/
def given (s : Threads) : List Move → List Nat
  | [] => []
  | m :: ms => (s.given? m).toList ++ (s.move m).given ms

theorem given?_eq (h : s.given? m = some seq) : seq = s.coordinator.nextSeq := by
  cases m with
  | go thread =>
      rw [given?] at h
      split at h
      · exact (Option.some.inj h).symm
      · cases h
  | _ => cases h

theorem nextSeq_le_of_mem_given {ms : List Move} (h : seq ∈ s.given ms) :
    s.coordinator.nextSeq ≤ seq := by
  induction ms generalizing s with
  | nil => cases h
  | cons m ms ih =>
      rw [given, List.mem_append, Option.mem_toList] at h
      obtain hgiven | hlater := h
      · exact Nat.le_of_eq (given?_eq hgiven).symm
      · exact Nat.le_trans (s.nextSeq_le_move m) (ih hlater)

/-- **Numbers ascend** in the order in which they are given. -/
theorem pairwise_given (s : Threads) (ms : List Move) : (s.given ms).Pairwise (· < ·) := by
  induction ms generalizing s with
  | nil => exact List.Pairwise.nil
  | cons m ms ih =>
      rw [given]
      cases hgiven : s.given? m with
      | none => exact ih (s.move m)
      | some seq =>
          refine List.pairwise_cons.mpr ⟨fun later hlater => ?_, ih (s.move m)⟩
          have hle := nextSeq_le_of_mem_given hlater
          rw [(s.move_rest m 0).2.1, hgiven, ← given?_eq hgiven] at hle
          exact hle

/-! ## Threads in the middle of a call -/

/-- How a thread has come to be where it is after a move. -/
inductive Comes (s : Threads) (thread : Nat) : Move → Progress → Prop
  | before {m : Move} {p : Progress} (hp : s.busy.get? thread = some p) : Comes s thread m p
  | admitted {call : StartCall} (haccept : s.coordinator.accept call.devices = .ok ()) :
      Comes s thread (.start thread call) (.admitted call)
  | stopping : Comes s thread (.shutdown thread) .stopping
  | numbered {call : StartCall} (hp : s.busy.get? thread = some (.admitted call)) :
      Comes s thread (.go thread) (.numbered call s.coordinator.nextSeq)
  | dated {call : StartCall} {seq : Nat} (hp : s.busy.get? thread = some (.numbered call seq)) :
      Comes s thread (.go thread) (.dated call seq (s.coordinator.deadlineOf call.delay))

theorem comes_of_insert {thread' : Nat} {p p' : Progress} (hself : Comes s thread' m p')
    (h : (s.busy.insert thread' p').get? thread = some p) : Comes s thread m p := by
  rw [Table.get?_insert] at h
  split at h
  · rename_i hthread
    cases h
    exact hthread ▸ hself
  · exact .before h

theorem comes_of_erase {thread' : Nat} {p : Progress}
    (h : (s.busy.erase thread').get? thread = some p) : Comes s thread m p := by
  rw [Table.get?_erase] at h
  split at h
  · cases h
  · exact .before h

theorem comes_of_move {p : Progress} (h : (s.move m).busy.get? thread = some p) :
    Comes s thread m p := by
  cases m with
  | start thread' call =>
      rw [move] at h
      split at h
      · exact .before h
      · split at h
        · exact .before h
        · rename_i haccept
          exact comes_of_insert (.admitted haccept) h
  | shutdown thread' =>
      rw [move] at h
      split at h
      · exact .before h
      · exact comes_of_insert .stopping h
  | go thread' =>
      rw [move] at h
      split at h
      · exact .before h
      · rename_i progress hp
        cases progress with
        | admitted call => exact comes_of_insert (.numbered hp) h
        | numbered call seq => exact comes_of_insert (.dated hp) h
        | dated call seq deadline => exact comes_of_erase h
        | stopping => exact comes_of_erase h
  | watch crash? =>
      have hbusy : (s.watch crash?).busy = s.busy := by
        rw [watch]
        split
        · split <;> rfl
        · rfl
      exact .before (hbusy ▸ h)
  | report | cancel | elapse => exact .before h

/-- Whether a start holds a number that it has not registered. -/
def Holds (s : Threads) (thread seq : Nat) : Prop :=
  ∃ p, s.busy.get? thread = some p ∧ p.seq? = some seq

/-- A number that is held was held before, or has just been given. -/
theorem Holds.of_move (h : (s.move m).Holds thread seq) :
    s.Holds thread seq ∨ m = .go thread ∧ s.given? m = some seq := by
  obtain ⟨p, hp, hseq⟩ := h
  cases comes_of_move hp with
  | before hbefore => exact .inl ⟨p, hbefore, hseq⟩
  | admitted | stopping => cases hseq
  | numbered hbefore =>
      cases hseq
      exact .inr ⟨rfl, by rw [given?, hbefore]⟩
  | dated hbefore => exact .inl ⟨_, hbefore, hseq⟩

/-- The thread that registers a request is in the middle of a start, and holds its number no
longer. -/
theorem exists_of_registered? {r : Asked} (h : s.registered? m = some r) :
    ∃ thread call deadline, m = .go thread
      ∧ s.busy.get? thread = some (.dated call r.seq deadline)
      ∧ r = ⟨r.seq, call.devices, deadline - s.coordinator.clock, call.callback⟩
      ∧ s.move m = { s with
          coordinator := s.coordinator.register r.seq call.devices deadline call.callback
          busy := s.busy.erase thread } := by
  cases m with
  | go thread =>
      rw [registered?] at h
      split at h
      · rename_i call seq deadline hp
        cases h
        exact ⟨thread, call, deadline, rfl, hp, rfl, by rw [move, hp]; rfl⟩
      · cases h
  | _ => cases h

theorem holds_of_registered? {r : Asked} (h : s.registered? m = some r) :
    ∃ thread, m = .go thread ∧ s.Holds thread r.seq ∧ (s.move m).busy.get? thread = none := by
  obtain ⟨thread, call, deadline, hm, hp, -, hmove⟩ := exists_of_registered? h
  refine ⟨thread, hm, ⟨_, hp, rfl⟩, ?_⟩
  rw [hmove]
  exact Table.get?_erase_self ..

/-! ## Order among the threads -/

/-- Whether each start is for some device and holds a number of its own, under which nothing has
happened yet. -/
structure Orderly (s : Threads) : Prop where
  fresh : s.coordinator.Fresh
  lt : ∀ thread seq, s.Holds thread seq → seq < s.coordinator.nextSeq
  unique : ∀ thread thread' seq, s.Holds thread seq → s.Holds thread' seq → thread = thread'
  untold : ∀ thread seq, s.Holds thread seq → s.coordinator.view seq = ⟨none, []⟩
  devices : ∀ thread p call, s.busy.get? thread = some p → p.call? = some call →
    call.devices ≠ []

theorem orderly_initial (timeout : Nat) : Orderly { coordinator := { timeout } } := by
  have hnone (thread seq : Nat) : ¬Holds { coordinator := { timeout } } thread seq := by
    rintro ⟨p, hp, -⟩
    cases hp
  exact {
    fresh := fun _ _ => rfl
    lt := fun thread seq h => absurd h (hnone thread seq)
    unique := fun thread _ seq h => absurd h (hnone thread seq)
    untold := fun thread seq h => absurd h (hnone thread seq)
    devices := fun _ _ _ hp => by cases hp }

/-- Nothing happens under a number that nobody registers. -/
theorem view_move_of_untold (hview : s.coordinator.view seq = ⟨none, []⟩)
    (hother : ∀ r, s.registered? m = some r → r.seq ≠ seq) :
    (s.move m).coordinator.view seq = ⟨none, []⟩ := by
  rw [s.view_move hother, hview]
  cases s.seen seq m with
  | none => rfl
  | some e => exact View.after_ended [] seq s.coordinator.clock e

/-- **Order is kept.** -/
theorem Orderly.move (h : s.Orderly) (m : Move) : (s.move m).Orderly := by
  have hgiven {seq : Nat} (hseq : s.given? m = some seq) :
      (s.move m).coordinator.nextSeq = s.coordinator.nextSeq + 1 := by
    rw [(s.move_rest m 0).2.1, hseq]
    rfl
  -- a number that is held was held, and a number that has just been given nobody else holds
  have hheld {thread seq : Nat} (hafter : (s.move m).Holds thread seq) :
      s.Holds thread seq ∨ m = .go thread ∧ s.given? m = some seq := hafter.of_move
  refine ⟨fun seq hseq => ?_, fun thread seq hafter => ?_,
    fun thread thread' seq hafter hafter' => ?_, fun thread seq hafter => ?_,
    fun thread p call hp hcall => ?_⟩
  · have hold := Nat.le_trans (s.nextSeq_le_move m) hseq
    refine view_move_of_untold (h.fresh seq hold) fun r hr heq => ?_
    obtain ⟨thread, -, hholds, -⟩ := holds_of_registered? hr
    exact absurd (h.lt thread seq (heq ▸ hholds)) (Nat.not_lt.mpr hold)
  · obtain hbefore | ⟨-, hseq⟩ := hheld hafter
    · exact Nat.lt_of_lt_of_le (h.lt thread seq hbefore) (s.nextSeq_le_move m)
    · rw [hgiven hseq, given?_eq hseq]
      exact Nat.lt_succ_self _
  · obtain hbefore | ⟨hgo, hseq⟩ := hheld hafter
    · obtain hbefore' | ⟨-, hseq'⟩ := hheld hafter'
      · exact h.unique thread thread' seq hbefore hbefore'
      · exact absurd (h.lt thread seq hbefore) (given?_eq hseq' ▸ Nat.lt_irrefl _)
    · obtain hbefore' | ⟨hgo', -⟩ := hheld hafter'
      · exact absurd (h.lt thread' seq hbefore') (given?_eq hseq ▸ Nat.lt_irrefl _)
      · exact Move.go.inj (hgo.symm.trans hgo')
  · obtain ⟨p, hp, -⟩ := id hafter
    refine view_move_of_untold ?_ fun r hr heq => ?_
    · obtain hbefore | ⟨-, hseq⟩ := hheld hafter
      · exact h.untold thread seq hbefore
      · exact h.fresh seq (Nat.le_of_eq (given?_eq hseq).symm)
    · -- the thread that registers the number holds it no longer, and no other does
      obtain ⟨thread', hgo', hholds', hnone⟩ := holds_of_registered? hr
      rw [heq] at hholds'
      have hthread : thread = thread' := by
        obtain hbefore | ⟨hgo, -⟩ := hheld hafter
        · exact h.unique thread thread' seq hbefore hholds'
        · exact Move.go.inj (hgo.symm.trans hgo')
      rw [hthread, hnone] at hp
      cases hp
  · cases comes_of_move hp with
    | before hbefore => exact h.devices thread p call hbefore hcall
    | admitted haccept =>
        cases hcall
        exact (accept_eq_ok_iff.mp haccept).1
    | stopping => cases hcall
    | numbered hbefore => exact h.devices thread _ call hbefore hcall
    | dated hbefore => exact h.devices thread _ call hbefore hcall

theorem Orderly.run (h : s.Orderly) (ms : List Move) : (s.run ms).Orderly := by
  induction ms generalizing s with
  | nil => exact h
  | cons m ms ih => exact ih (h.move m)

/-! ## Registered requests -/

/-- Whether a number has been given and is not held any more. -/
structure Spent (s : Threads) (seq : Nat) : Prop where
  lt : seq < s.coordinator.nextSeq
  free : ∀ thread, ¬s.Holds thread seq

theorem Spent.move (h : s.Spent seq) (m : Move) : (s.move m).Spent seq where
  lt := Nat.lt_of_lt_of_le h.lt (s.nextSeq_le_move m)
  free thread hafter := by
    obtain hbefore | ⟨-, hseq⟩ := hafter.of_move
    · exact h.free thread hbefore
    · exact absurd h.lt (given?_eq hseq ▸ Nat.lt_irrefl _)

theorem Spent.not_registered (h : s.Spent seq) :
    ∀ r, s.registered? m = some r → r.seq ≠ seq := by
  rintro r hr rfl
  obtain ⟨thread, -, hholds, -⟩ := holds_of_registered? hr
  exact h.free thread hholds

theorem spent_of_registered? (h : s.Orderly) {r : Asked} (hr : s.registered? m = some r) :
    (s.move m).Spent r.seq := by
  obtain ⟨thread, hgo, hholds, hnone⟩ := holds_of_registered? hr
  refine ⟨Nat.lt_of_lt_of_le (h.lt thread r.seq hholds) (s.nextSeq_le_move m),
    fun thread' hafter => ?_⟩
  have hthread : thread' = thread := by
    obtain hbefore | ⟨hgo', -⟩ := hafter.of_move
    · exact h.unique thread' thread r.seq hbefore hholds
    · exact Move.go.inj (hgo'.symm.trans hgo)
  obtain ⟨p, hp, -⟩ := hafter
  rw [hthread, hnone] at hp
  cases hp

/-- A request is waited for when it has been registered. -/
theorem awaits_of_registered? (h : s.Orderly) {r : Asked} (hr : s.registered? m = some r) :
    ∃ p, r.Awaits [] (s.move m).coordinator p := by
  have hspent := spent_of_registered? h hr
  obtain ⟨thread, call, deadline, -, hp, hasked, hmove⟩ := exists_of_registered? hr
  have huntold := h.untold thread r.seq ⟨_, hp, rfl⟩
  have hdevices : call.devices ≠ [] := h.devices thread _ call hp rfl
  have hlt := hspent.lt
  rw [hmove] at hlt ⊢
  refine ⟨{ devices := KeySet.ofList r.devices, deadline, callback := r.callback },
    Asked.awaits_of_view ?_ hlt ?_ rfl ?_⟩
  · rw [view_register, if_pos rfl, huntold, hasked]
  · rw [hasked]
    exact hdevices
  · rw [hasked]
    rfl

/-- What a request sees of moves, as events at a coordinator. -/
def sees (s : Threads) (seq : Nat) : List Move → List Event
  | [] => []
  | m :: ms => (s.seen seq m).toList ++ (s.move m).sees seq ms

/-- **A request that has been registered is to the threads what it is to a coordinator** that hears
the events it sees. -/
theorem view_run (hspent : s.Spent seq) {c : Coordinator}
    (hview : s.coordinator.view seq = c.view seq) (hclock : s.coordinator.clock = c.clock)
    (hold : seq < c.nextSeq) (ms : List Move) :
    (s.run ms).coordinator.view seq = (c.run (s.sees seq ms)).view seq := by
  induction ms generalizing s c with
  | nil => exact hview
  | cons m ms ih =>
      have hmove := s.view_move (m := m) hspent.not_registered
      have htime := (s.move_rest m seq).1
      rw [sees]
      cases hseen : s.seen seq m with
      | none =>
          rw [hseen] at hmove htime
          exact ih (hspent.move m) (hmove.trans hview) (htime.trans hclock) hold
      | some e =>
          rw [hseen] at hmove htime
          refine ih (hspent.move m) ?_ ?_ (Nat.lt_of_lt_of_le hold (c.nextSeq_le_handle e))
          · rw [hmove, view_handle c (begun?_ne_of_lt hold e), hview, hclock]
            rfl
          · rw [htime, (c.handle_rest e).1, hclock]
            rfl

/-- The requests that moves register, each with what it sees of the moves that come after. -/
def registered (s : Threads) : List Move → List (Asked × List Event)
  | [] => []
  | m :: ms =>
      ((s.registered? m).map fun r => (r, (s.move m).sees r.seq ms)).toList
        ++ (s.move m).registered ms

theorem mem_registered_cons {ms : List Move} {x : Asked × List Event} :
    x ∈ s.registered (m :: ms)
      ↔ s.registered? m = some x.1 ∧ x.2 = (s.move m).sees x.1.seq ms
        ∨ x ∈ (s.move m).registered ms := by
  rw [registered, List.mem_append, Option.mem_toList, Option.map_eq_some_iff]
  refine or_congr_left ⟨?_, fun ⟨hr, hafter⟩ => ⟨x.1, hr, by rw [← hafter]⟩⟩
  rintro ⟨r, hr, rfl⟩
  exact ⟨hr, rfl⟩

/-- **What is held of a request** after moves is what a coordinator that waits for it holds after
the events it sees. -/
theorem awaits_of_mem_registered (h : s.Orderly) {ms : List Move} {r : Asked} {after : List Event}
    (hr : (r, after) ∈ s.registered ms) :
    ∃ c p, r.Awaits [] c p ∧ (s.run ms).coordinator.view r.seq = (c.run after).view r.seq := by
  induction ms generalizing s with
  | nil => cases hr
  | cons m ms ih =>
      obtain ⟨hr, hafter⟩ | hlater := mem_registered_cons.mp hr
      · obtain ⟨p, hawaits⟩ := awaits_of_registered? h hr
        refine ⟨_, p, hawaits, ?_⟩
        rw [show after = (s.move m).sees r.seq ms from hafter]
        exact view_run (spent_of_registered? h hr) rfl rfl hawaits.old ms
      · exact ih (h.move m) hlater

/-- A number that is spent is not registered again. -/
theorem Spent.ne_of_mem_registered (h : s.Spent seq) {ms : List Move} :
    ∀ x ∈ s.registered ms, x.1.seq ≠ seq := by
  induction ms generalizing s with
  | nil => exact fun x hx => by cases hx
  | cons m ms ih =>
      intro x hx
      obtain ⟨hr, -⟩ | hlater := mem_registered_cons.mp hx
      · exact h.not_registered x.1 hr
      · exact ih (h.move m) x hlater

/-- No two requests have one number. -/
theorem nodup_registered (h : s.Orderly) (ms : List Move) :
    ((s.registered ms).map (·.1.seq)).Nodup := by
  induction ms generalizing s with
  | nil => exact List.nodup_nil
  | cons m ms ih =>
      rw [registered]
      cases hr : s.registered? m with
      | none => exact ih (h.move m)
      | some r =>
          refine List.nodup_cons.mpr ⟨fun hmem => ?_, ih (h.move m)⟩
          obtain ⟨x, hx, hseq⟩ := List.mem_map.mp hmem
          exact (spent_of_registered? h hr).ne_of_mem_registered x hx hseq

/-- Nothing happens under a number without a request. -/
theorem view_run_of_not_registered {ms : List Move}
    (hview : s.coordinator.view seq = ⟨none, []⟩) (h : ∀ x ∈ s.registered ms, x.1.seq ≠ seq) :
    (s.run ms).coordinator.view seq = ⟨none, []⟩ := by
  induction ms generalizing s with
  | nil => exact hview
  | cons m ms ih =>
      refine ih (view_move_of_untold hview fun r hr => ?_) fun x hx =>
        h x (mem_registered_cons.mpr (.inr hx))
      exact h (r, (s.move m).sees r.seq ms) (mem_registered_cons.mpr (.inl ⟨hr, rfl⟩))

end Threads

end PeerStore.Coordinator
