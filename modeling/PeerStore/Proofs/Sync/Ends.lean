import Mathlib.Data.List.Permutation
import PeerStore.Proofs.Sync.Requests

/-!
# How requests end among threads

A request comes from a start that was let in some time before (`Threads.ComesFrom`). From its
registration on it waits for the events that it sees, and ends by the first that ends it
(**`Threads.requests_end_once`**). That a deadline passes is no such event: the watchdog has to take
its turn. A report that comes before counts, and where there is no watchdog any more a request waits
for its reports however long (**`Threads.deadline_passes_untold`**).
-/

set_option autoImplicit false

namespace PeerStore.Coordinator.Threads

variable {s : Threads} {m : Move} {thread seq : Nat}

/-! ## Where a request comes from -/

/-- Whether a move has been made among others, when something was so. -/
def Past (ms : List Move) (m : Move) (P : List Move → Prop) : Prop :=
  ∃ before later, ms = before ++ m :: later ∧ P before

theorem Past.concat {ms : List Move} {P : List Move → Prop} (h : Past ms m P) (m' : Move) :
    Past (ms ++ [m']) m P := by
  obtain ⟨before, later, rfl, hP⟩ := h
  exact ⟨before, later ++ [m'], by simp, hP⟩

theorem Past.last {ms : List Move} {P : List Move → Prop} (h : P ms) : Past (ms ++ [m]) m P :=
  ⟨ms, [], rfl, h⟩

/-- Whether a start has been let in. -/
def Admitted (s : Threads) (thread : Nat) (call : StartCall) (ms : List Move) : Prop :=
  Past ms (.start thread call) fun before =>
    (s.run before).coordinator.accept call.devices = .ok ()

/-- Whether a start that was let in has then taken a number. -/
def Numbered (s : Threads) (thread : Nat) (call : StartCall) (seq : Nat) (ms : List Move) : Prop :=
  Past ms (.go thread) fun before =>
    s.Admitted thread call before ∧ seq = (s.run before).coordinator.nextSeq

/-- Whether a start with a number has then looked at the clock. -/
def Dated (s : Threads) (thread : Nat) (call : StartCall) (seq deadline : Nat) (ms : List Move) :
    Prop :=
  Past ms (.go thread) fun before =>
    s.Numbered thread call seq before
      ∧ deadline = (s.run before).coordinator.deadlineOf call.delay

/-- What has been done by a thread that is in the middle of a call. -/
def Follows (s : Threads) (thread : Nat) : Progress → List Move → Prop
  | .admitted call => s.Admitted thread call
  | .numbered call seq => s.Numbered thread call seq
  | .dated call seq deadline => s.Dated thread call seq deadline
  | .stopping => fun _ => True

theorem Follows.concat {p : Progress} {ms : List Move} (h : s.Follows thread p ms) (m : Move) :
    s.Follows thread p (ms ++ [m]) := by
  cases p with
  | admitted | numbered | dated => exact Past.concat h m
  | stopping => trivial

/-- A thread in the middle of a call has made the steps before. -/
theorem follows_of_busy (hidle : s.busy = Table.empty) {ms : List Move} {p : Progress}
    (hp : (s.run ms).busy.get? thread = some p) : s.Follows thread p ms := by
  induction ms using List.reverseRecOn generalizing p with
  | nil =>
      rw [run, List.foldl_nil, hidle] at hp
      cases hp
  | append_singleton ms m ih =>
      rw [run_concat] at hp
      cases comes_of_move hp with
      | before hbefore => exact (ih hbefore).concat m
      | admitted haccept => exact Past.last haccept
      | stopping => trivial
      | numbered hbefore => exact Past.last ⟨ih hbefore, rfl⟩
      | dated hbefore => exact Past.last ⟨ih hbefore, rfl⟩

/-- Where a request comes from: a start that was let in, had taken its number and knew its deadline,
with the events that it sees from its registration on. -/
structure ComesFrom (s : Threads) (ms : List Move) (r : Asked) (after : List Event)
    (thread : Nat) (call : StartCall) (deadline : Nat) (before later : List Move) : Prop where
  moves : ms = before ++ .go thread :: later
  dated : s.Dated thread call r.seq deadline before
  devices : r.devices = call.devices
  callback : r.callback = call.callback
  allowance : r.allowance = deadline - (s.run before).coordinator.clock
  sees : after = (s.run (before ++ [.go thread])).sees r.seq later

theorem exists_busy_of_mem_registered {ms : List Move} {r : Asked} {after : List Event}
    (hr : (r, after) ∈ s.registered ms) :
    ∃ thread call deadline before later, ms = before ++ .go thread :: later
      ∧ (s.run before).busy.get? thread = some (.dated call r.seq deadline)
      ∧ r = ⟨r.seq, call.devices, deadline - (s.run before).coordinator.clock, call.callback⟩
      ∧ after = (s.run (before ++ [.go thread])).sees r.seq later := by
  induction ms generalizing s with
  | nil => cases hr
  | cons m ms ih =>
      obtain ⟨hr, hafter⟩ | hlater := mem_registered_cons.mp hr
      · obtain ⟨thread, call, deadline, rfl, hp, hasked, -⟩ := exists_of_registered? hr
        exact ⟨thread, call, deadline, [], ms, rfl, hp, hasked, hafter⟩
      · obtain ⟨thread, call, deadline, before, later, rfl, hp, hasked, hafter⟩ := ih hlater
        exact ⟨thread, call, deadline, m :: before, later, rfl, hp, hasked, hafter⟩

/-- **Requests are registered by starts** that were let in before. -/
theorem exists_comesFrom (hidle : s.busy = Table.empty) {ms : List Move} {r : Asked}
    {after : List Event} (hr : (r, after) ∈ s.registered ms) :
    ∃ thread call deadline before later,
      s.ComesFrom ms r after thread call deadline before later := by
  obtain ⟨thread, call, deadline, before, later, hmoves, hp, hasked, hafter⟩ :=
    exists_busy_of_mem_registered hr
  refine ⟨thread, call, deadline, before, later, hmoves, follows_of_busy hidle hp, ?_, ?_, ?_,
    hafter⟩
  · rw [hasked]
  · rw [hasked]
  · rw [hasked]

/-! ## The watchdog -/

/-- Whether a move can be the end of the watchdog. -/
def Move.quits : Move → Bool
  | .shutdown _ => true
  | .watch crash? => crash?.isSome
  | _ => false

/-- The watchdog goes on as it does until a shutdown is called for or a callback crashes. -/
theorem watches_move (hm : m.quits = false) : (s.move m).watches = s.watches := by
  have hbeside {c : Coordinator} (hc : s.coordinator.Beside c) :
      watches { s with coordinator := c } = s.watches := by
    rw [watches, hc.stopped]
    rfl
  cases m with
  | start thread call =>
      rw [move]
      split
      · rfl
      · split <;> rfl
  | shutdown thread => cases hm
  | go thread =>
      rw [move]
      split
      · rfl
      · rename_i progress _
        cases progress <;> rfl
  | report seq device result => exact hbeside (s.coordinator.beside_report seq device result)
  | cancel seq => exact hbeside (s.coordinator.beside_cancel seq)
  | elapse milliseconds => rfl
  | watch crash? =>
      cases crash? with
      | some crash => cases hm
      | none =>
          rw [move, watch]
          split
          · exact hbeside s.coordinator.beside_expire
          · rename_i hwatches
            exact (Bool.eq_false_iff.mpr hwatches).symm

theorem watches_run (h : s.watches = true) {ms : List Move} (hms : ∀ m ∈ ms, m.quits = false) :
    (s.run ms).watches = true := by
  induction ms generalizing s with
  | nil => exact h
  | cons m ms ih =>
      refine ih ((watches_move (hms m List.mem_cons_self)).trans h) fun m' hm' => ?_
      exact hms m' (List.mem_cons_of_mem m hm')

/-- Where no one watches no one ever does. -/
theorem not_watches_move (h : s.watches = false) (m : Move) : (s.move m).watches = false := by
  cases hm : m.quits with
  | false => exact (watches_move hm).trans h
  | true =>
      cases m with
      | shutdown thread =>
          rw [move]
          split
          · exact h
          · exact Bool.and_false _
      | watch crash? =>
          rw [move, watch, h]
          rfl
      | _ => cases hm

theorem not_watches_run (h : s.watches = false) (ms : List Move) :
    (s.run ms).watches = false := by
  induction ms generalizing s with
  | nil => exact h
  | cons m ms ih => exact ih (not_watches_move h m)

theorem coordinator_watch_of_not_watches (h : s.watches = false) (crash? : Option Crash) :
    (s.watch crash?).coordinator = s.coordinator := by
  rw [watch, h]
  rfl

/-- A watchdog that watches leaves nothing that is due. -/
theorem lt_deadline_of_watch (h : s.watches = true) {p : PendingSync}
    (hp : (s.watch none).coordinator.pending.get? seq = some p) :
    s.coordinator.clock < p.deadline := by
  rw [watch, if_pos h] at hp
  exact lt_deadline_of_expire hp

/-- Where no one watches, time changes nothing but the clock. -/
theorem exists_elapsed_of_not_watches (h : s.watches = false) {ms : List Move}
    (hms : ∀ m ∈ ms, (∃ crash?, m = .watch crash?) ∨ ∃ milliseconds, m = .elapse milliseconds) :
    ∃ milliseconds, (s.run ms).coordinator = s.coordinator.elapse milliseconds := by
  induction ms generalizing s with
  | nil => exact ⟨0, rfl⟩
  | cons m ms ih =>
      obtain ⟨later, hlater⟩ := ih (not_watches_move h m) fun m' hm' =>
        hms m' (List.mem_cons_of_mem m hm')
      obtain ⟨crash?, rfl⟩ | ⟨milliseconds, rfl⟩ := hms m List.mem_cons_self
      · exact ⟨later, hlater.trans (by rw [move, coordinator_watch_of_not_watches h])⟩
      · refine ⟨milliseconds + later, hlater.trans ?_⟩
        rw [move, elapse, elapse, elapse, Nat.add_assoc]

theorem isDue_elapse {c : Coordinator} (h : c.isDue seq = true) (milliseconds : Nat) :
    (c.elapse milliseconds).isDue seq = true := by
  rw [isDue, Option.any_eq_true] at h ⊢
  obtain ⟨p, hp, hdeadline⟩ := h
  exact ⟨p, hp, decide_eq_true (Nat.le_add_right_of_le (of_decide_eq_true hdeadline))⟩

/-- A report does not ask what time it is. -/
theorem finished_report_elapse (c : Coordinator) (milliseconds seq : Nat) (device : String)
    (result : SyncResult) :
    ((c.elapse milliseconds).report seq device result).finished
      = (c.report seq device result).finished := by
  rw [report, report, elapse]
  cases c.pending.get? seq with
  | none => rfl
  | some p =>
      dsimp only
      split <;> rfl

/-! ## All requests -/

/-- What is held of a number: a request that waits, or at most one record and nothing pending. -/
theorem view_cases (h : s.Orderly) (huntold : ∀ seq, s.coordinator.view seq = ⟨none, []⟩)
    (ms : List Move) (seq : Nat) :
    (∃ p, (s.run ms).coordinator.view seq = ⟨some p, []⟩ ∧ p.Waits)
      ∨ ∃ l, (s.run ms).coordinator.view seq = ⟨none, l⟩ ∧ l.length ≤ 1 := by
  -- a number that was registered is that of an open or an ended request, any other is of none
  by_cases hregistered : ∃ x ∈ s.registered ms, x.1.seq = seq
  · obtain ⟨⟨r, after⟩, hr, rfl⟩ := hregistered
    obtain ⟨c, p, hawaits, hrun⟩ := awaits_of_mem_registered h hr
    rw [hrun]
    cases hend : r.ending? [] after with
    | none =>
        obtain ⟨p', hawaits'⟩ := hawaits.run hend
        exact Or.inl ⟨p', hawaits'.view, hawaits'.waits⟩
    | some ended => exact Or.inr (hawaits.run_to_end hend).exists_view
  · push Not at hregistered
    exact Or.inr ⟨[], view_run_of_not_registered (huntold seq) hregistered, Nat.zero_le 1⟩

/-- **Every request ends once, by the first event that ends it**, whatever moves the threads make.
Numbers ascend, and no two requests have one. What is pending waits; nothing is told twice, and
nothing without a request. A request comes from a start that was let in before, with the deadline
that it got when it looked at the clock. While no event has ended it, it is pending with the first
report of each device. If one has, it was withdrawn, and nobody is told, or its callback was told
what had been reported, and of a device that had timed out at the watchdog's turn only. Until a
shutdown is called for or a callback crashes the watchdog watches: it sleeps up to the first
deadline at most, and leaves nothing that is due. Where it does not it never gives anything up
again, however many deadlines pass. And a move changes nothing about the requests that it does not
concern. -/
theorem requests_end_once (timeout : Nat) (ms : List Move) :
    let s : Threads := { coordinator := { timeout } }
    let t := s.run ms
    let c := t.coordinator
    (s.given ms).Pairwise (· < ·)
      ∧ ((s.registered ms).map (·.1.seq)).Nodup
      ∧ (∀ seq, (∀ p, c.pending.get? seq = some p → p.Waits)
          ∧ (c.view seq).finished.length ≤ 1
          ∧ ((∀ x ∈ s.registered ms, x.1.seq ≠ seq) → c.view seq = ⟨none, []⟩))
      ∧ (∀ r after, (r, after) ∈ s.registered ms →
          (∃ thread call deadline before later,
            s.ComesFrom ms r after thread call deadline before later)
          ∧ (r.ending? [] after = none →
            ∃ p, c.view r.seq = ⟨some p, []⟩
              ∧ (∀ device, p.devices.contains device = decide (device ∈ r.devices))
              ∧ ∀ device, p.results.get? device
                = if device ∈ r.devices then r.reported? device after else none)
          ∧ ∀ before e, r.ending? [] after = some (before, e) → r.Ended before e (c.view r.seq))
      ∧ ((∀ m ∈ ms, m.quits = false) → t.watches = true)
      ∧ (t.watches = true → ∀ seq p,
          (c.pending.get? seq = some p → ∃ time, c.nextDeadline? = some time ∧ time ≤ p.deadline)
            ∧ ((t.watch none).coordinator.pending.get? seq = some p → c.clock < p.deadline))
      ∧ (t.watches = false → ∀ more crash?,
          ((t.run more).watch crash?).coordinator = (t.run more).coordinator)
      ∧ ∀ seq m, t.concerns seq m = false → (t.move m).coordinator.view seq = c.view seq := by
  intro s t c
  have horderly : s.Orderly := orderly_initial timeout
  have huntold : ∀ seq, s.coordinator.view seq = ⟨none, []⟩ := fun _ => rfl
  refine ⟨pairwise_given s ms, nodup_registered horderly ms,
    fun seq => ⟨fun p hp => ?_, ?_, fun h => ?_⟩, fun r after hr => ?_, watches_run rfl,
    fun h seq p => ⟨nextDeadline?_le, lt_deadline_of_watch h⟩,
    fun h more => coordinator_watch_of_not_watches (not_watches_run h more),
    fun _ _ => view_move_of_not_concerned⟩
  · obtain ⟨p', hview, hwaits⟩ | ⟨l, hview, -⟩ := view_cases horderly huntold ms seq
    · have heq : some p = some p' := hp.symm.trans (congrArg View.pending hview)
      cases heq
      exact hwaits
    · exact absurd (hp.symm.trans (congrArg View.pending hview)) (Option.some_ne_none p)
  · obtain ⟨p', hview, -⟩ | ⟨l, hview, hl⟩ := view_cases horderly huntold ms seq
    · exact hview ▸ Nat.zero_le 1
    · exact hview ▸ hl
  · exact view_run_of_not_registered (huntold seq) h
  · obtain ⟨c', p, hawaits, hrun⟩ := awaits_of_mem_registered horderly hr
    have hc : c.view r.seq = (c'.run after).view r.seq := hrun
    rw [hc]
    refine ⟨exists_comesFrom rfl hr, fun hnone => ?_, fun before e => hawaits.run_to_end⟩
    obtain ⟨p', hawaits'⟩ := hawaits.run hnone
    exact ⟨p', hawaits'.view, hawaits'.contains_devices, hawaits'.results⟩

/-- Two starts at once. The first takes its number first and is registered last, when its request is
given up with one device missing; the other is completed among stray and repeated reports. -/
theorem requests_end_once_of_two_starts :
    let first : StartCall := ⟨"s", ["a", "b"], .pull, none, 0, some "first"⟩
    let second : StartCall := ⟨"s", ["a", "b", "a"], .push, none, 10, some "second"⟩
    let ms : List Move :=
      [.start 7 first, .start 8 second, .go 7, .go 8, .go 8, .go 8, .report 1 "a" (.ok ()), .go 7,
        .go 7, .report 2 "c" (.ok ()), .report 2 "b" (.ok ()), .report 2 "b" (.error .timedOut),
        .report 1 "a" (.ok ()), .report 2 "a" (.error (.backend "link down")), .elapse 20,
        .watch none, .report 1 "b" (.ok ()), .shutdown 7, .go 7]
    let t := run { coordinator := { timeout := 20 } } ms
    (∃ results, t.coordinator.view 1 = ⟨none, [⟨1, some "first", results⟩]⟩
        ∧ results.get? "a" = some (.ok ()) ∧ results.get? "b" = some (.error .timedOut))
      ∧ ∃ results, t.coordinator.view 2 = ⟨none, [⟨2, some "second", results⟩]⟩
        ∧ results.get? "a" = some (.error (.backend "link down"))
        ∧ results.get? "b" = some (.ok ()) ∧ results.get? "c" = none := by
  intro first second ms t
  obtain ⟨-, -, -, hends, -⟩ := requests_end_once 20 ms
  let events : List Event :=
    [.report 2 "c" (.ok ()), .report 2 "b" (.ok ()), .report 2 "b" (.error .timedOut),
      .report 1 "a" (.ok ()), .report 2 "a" (.error (.backend "link down")), .elapse 20, .expire,
      .report 1 "b" (.ok ()), .shutdown]
  have hregistered : registered { coordinator := { timeout := 20 } } ms
      = [(⟨2, ["a", "b", "a"], 30, some "second"⟩, .report 1 "a" (.ok ()) :: events),
          (⟨1, ["a", "b"], 20, some "first"⟩, events)] := by cbv
  rw [hregistered] at hends
  have h₁ := (hends ⟨1, ["a", "b"], 20, some "first"⟩ events (.tail _ (.head _))).2.2 _ _ rfl
  have h₂ := (hends ⟨2, ["a", "b", "a"], 30, some "second"⟩ _ (.head _)).2.2 _ _ rfl
  constructor
  · obtain ⟨hcancel, -⟩ | ⟨-, results, hview, hresults, -⟩ := h₁
    · cases hcancel
    · exact ⟨results, hview, hresults "a", hresults "b"⟩
  · obtain ⟨hcancel, -⟩ | ⟨-, results, hview, hresults, -⟩ := h₂
    · cases hcancel
    · exact ⟨results, hview, hresults "a", hresults "b", hresults "c"⟩

/-- **A deadline can pass without a word that a device has timed out.** A report that comes after
the deadline but before the watchdog takes its turn counts as any other. A start that was let in
before a shutdown registers its request when the shutdown is over: no one watches, so nobody is told
however long its deadline has passed, and then a report makes the callback run after all. And of two
requests that are due the second is lost to the crash of the first one's callback. -/
theorem deadline_passes_untold :
    let call (name : String) : StartCall := ⟨"s", ["a"], .push, none, 0, some name⟩
    let s : Threads := { coordinator := { timeout := 0 } }
    let told (t : Threads) := t.coordinator.finished.map fun f =>
      (f.seq, f.callback, (f.results.get? "a").map (·.isOk))
    let begun := s.run [.start 1 (call "x"), .go 1, .go 1, .go 1]
    let raced := s.run [.start 1 (call "x"), .shutdown 2, .go 2, .go 1, .go 1, .go 1]
    let both := begun.run [.start 2 (call "y"), .go 2, .go 2, .go 2]
    let crashed := both.move (.watch (some ⟨1, []⟩))
    (begun.coordinator.isDue 1 = true
        ∧ told (begun.move (.report 1 "a" (.ok ()))) = [(1, some "x", some true)])
      ∧ (∀ ms, (∀ m ∈ ms, (∃ crash?, m = .watch crash?) ∨ ∃ n, m = .elapse n) →
          let later := raced.run ms
          later.coordinator.isDue 1 = true ∧ told later = []
            ∧ told (later.move (.report 1 "a" (.ok ()))) = [(1, some "x", some true)])
      ∧ both.coordinator.isDue 2 = true
      ∧ told crashed = [(1, some "x", some false)]
      ∧ (crashed.coordinator.pending.get? 2).isNone = true := by
  intro call s told begun raced both crashed
  refine ⟨by decide +kernel, fun ms hms => ?_, by decide +kernel⟩
  have hwatches : raced.watches = false := by decide +kernel
  have hdue : raced.coordinator.isDue 1 = true := by decide +kernel
  obtain ⟨n, hn⟩ := exists_elapsed_of_not_watches hwatches hms
  intro later
  have hlater : later.coordinator = raced.coordinator.elapse n := hn
  refine ⟨?_, ?_, ?_⟩
  · rw [hlater]
    exact isDue_elapse hdue n
  · have hbefore : told raced = [] := by decide +kernel
    show later.coordinator.finished.map _ = _
    rw [hlater]
    exact hbefore
  · have hreport : told (raced.move (.report 1 "a" (.ok ()))) = [(1, some "x", some true)] := by
      decide +kernel
    show (later.coordinator.report 1 "a" (.ok ())).finished.map _ = _
    rw [hlater, finished_report_elapse]
    exact hreport

end PeerStore.Coordinator.Threads
