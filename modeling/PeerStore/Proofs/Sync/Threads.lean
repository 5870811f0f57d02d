import PeerStore.Proofs.Sync.Run

/-!
# Threads at a coordinator

Threads share a coordinator, and its watchdog is one of them. The lock is not held for a whole
start: other threads can take their turns after the look at the flag, after the number is taken and
after the look at the clock, and also between the two steps of a shutdown. `Threads` is a
coordinator with the calls that are under way (`Progress`), and any list of moves is a run
(`Threads.run`). If nobody comes in between, the steps of a call are the call of a coordinator whose
callers take turns (**`run_start_alone`**, **`run_shutdown_alone`**).

The watchdog looks at the flag and takes out what is due under the lock, so that a stop in between
is as one that comes after. Callbacks are called outside the lock. They find nothing there that the
threads share, so the call counts to the move that takes the request out. A callback that crashes
takes its thread down: that of a report had nothing else to do, while the watchdog leaves the
requests behind that it has taken out and not come to (`Crash`), and no one watches from then on.

What a move is to one request is an event at a coordinator or nothing at all (`Threads.seen`,
**`Threads.view_move`**).
-/

set_option autoImplicit false

namespace PeerStore.Coordinator

/-! ## A callback that crashes -/

/-- A crash of a callback at a turn of the watchdog: whose callback it is, and the requests that the
watchdog has come to before. -/
structure Crash where
  seq : Nat
  before : List Nat

/-- Whether the watchdog comes to a request in spite of a crash. -/
def Crash.reaches (crash : Crash) (seq : Nat) : Bool :=
  seq == crash.seq || crash.before.contains seq

/-- Whether a crash can happen at a turn of the watchdog: its request is due, and has a callback. -/
def allows (c : Coordinator) (crash : Crash) : Bool :=
  c.isDue crash.seq && (c.pending.get? crash.seq).any (·.callback.isSome)

/-- The turn of a request: it is given up if the watchdog comes to it, and only taken out if not. -/
def turnUpTo (crash : Crash) (c : Coordinator) (e : Nat × PendingSync) : Coordinator :=
  if crash.reaches e.1 then c.finish e.1 e.2.giveUp else (c.cancel e.1).2

/-- Gives up what is due up to a crash. Nobody is told of the requests behind it, which are taken
out as well. -/
def expireUpTo (c : Coordinator) (crash : Crash) : Coordinator :=
  c.due.foldl (turnUpTo crash) c

theorem view_cancel (c : Coordinator) (seq seq' : Nat) :
    (c.cancel seq').2.view seq
      = if seq' = seq then { c.view seq with pending := none } else c.view seq :=
  view_erase c seq seq'

/-- What is due is told up to the crash, and is gone behind it. -/
theorem view_expireUpTo (c : Coordinator) (crash : Crash) (seq : Nat) :
    (c.expireUpTo crash).view seq
      = if c.isDue seq && !crash.reaches seq then { c.view seq with pending := none }
        else c.expire.view seq := by
  have hself : ∀ (c : Coordinator) (p : PendingSync), (turnUpTo crash c (seq, p)).view seq
      = if crash.reaches seq then (c.view seq).finish seq p.giveUp
        else { c.view seq with pending := none } := by
    intro c p
    unfold turnUpTo
    split
    · exact view_finish_self c seq p.giveUp
    · exact (view_cancel c seq seq).trans (if_pos rfl)
  have hother : ∀ (c : Coordinator) (e : Nat × PendingSync), e.1 ≠ seq →
      (turnUpTo crash c e).view seq = c.view seq := by
    intro c e hne
    unfold turnUpTo
    split
    · exact view_finish_of_ne c hne e.2.giveUp
    · exact (view_cancel c seq e.1).trans (if_neg hne)
  rw [expireUpTo, view_foldl_due (g := fun v p =>
    if crash.reaches seq then v.finish seq p.giveUp else { v with pending := none }) hself hother,
    view_expire, isDue]
  cases hp : c.pending.get? seq with
  | none => rfl
  | some p =>
      dsimp only [Option.any_some]
      by_cases hdeadline : p.deadline ≤ c.clock
      · cases crash.reaches seq <;> simp [hdeadline]
      · simp [hdeadline]

theorem beside_expireUpTo (c : Coordinator) (crash : Crash) : c.Beside (c.expireUpTo crash) := by
  refine .foldl (fun c e => ?_) c.due c
  unfold turnUpTo
  split
  · exact beside_finish c e.1 e.2.giveUp
  · exact beside_cancel c e.1

/-! ## Moves -/

/-- What a start is asked for. -/
structure StartCall where
  store : String
  devices : List String
  mode : SyncMode
  query : Option Query
  delay : Nat
  callback : Option String

/-- How far a thread is with a call that takes more than one step. -/
inductive Progress where
  /-- The start has been let in, and takes a number next. -/
  | admitted (call : StartCall)
  /-- The start has its number, and looks at the clock next. -/
  | numbered (call : StartCall) (seq : Nat)
  /-- The start knows its deadline, and registers its request next. -/
  | dated (call : StartCall) (seq deadline : Nat)
  /-- The shutdown has stopped the coordinator, and drops its requests next. -/
  | stopping

/-- The number that a start has taken and not registered yet. -/
def Progress.seq? : Progress → Option Nat
  | .numbered _ seq | .dated _ seq _ => some seq
  | .admitted _ | .stopping => none

/-- A coordinator with its threads. -/
structure Threads where
  coordinator : Coordinator
  /-- The threads in the middle of a start or of a shutdown. -/
  busy : Table Nat Progress := Table.empty
  /-- Whether the watchdog is there. -/
  watching : Bool := true

namespace Threads

/-- What can happen next. -/
inductive Move where
  /-- A thread calls for a start. -/
  | start (thread : Nat) (call : StartCall)
  /-- A thread calls for a shutdown. -/
  | shutdown (thread : Nat)
  /-- A thread goes on with its call. -/
  | go (thread : Nat)
  /-- A report, made to the coordinator or through the handle that came with the request. -/
  | report (seq : Nat) (device : String) (result : SyncResult)
  | cancel (seq : Nat)
  | elapse (milliseconds : Nat)
  /-- The watchdog takes its turn. A callback may crash. -/
  | watch (crash? : Option Crash)

/-- The next step of a thread. -/
def proceed (s : Threads) (thread : Nat) : Progress → Threads
  | .admitted call =>
      { s with
        coordinator := s.coordinator.takeNumber
        busy := s.busy.insert thread (.numbered call s.coordinator.nextSeq) }
  | .numbered call seq =>
      { s with
        busy := s.busy.insert thread (.dated call seq (s.coordinator.deadlineOf call.delay)) }
  | .dated call seq deadline =>
      { s with
        coordinator := s.coordinator.register seq call.devices deadline call.callback
        busy := s.busy.erase thread }
  | .stopping => { s with coordinator := s.coordinator.clear, busy := s.busy.erase thread }

/-- Whether the watchdog gives up what is due when it takes its turn. -/
def watches (s : Threads) : Bool := s.watching && !s.coordinator.stopped

/-- The crash at a turn of the watchdog, if it can happen. -/
def crash? (s : Threads) (crash? : Option Crash) : Option Crash :=
  crash?.filter s.coordinator.allows

/-- A turn of the watchdog. It returns when it finds the coordinator stopped. -/
def watch (s : Threads) (crash? : Option Crash) : Threads :=
  if s.watches then
    match s.crash? crash? with
    | none => { s with coordinator := s.coordinator.expire }
    | some crash => { s with coordinator := s.coordinator.expireUpTo crash, watching := false }
  else { s with watching := false }

/-- What comes of a move. A thread in the middle of a call makes no other. -/
def move (s : Threads) : Move → Threads
  | .start thread call =>
      if s.busy.contains thread then s
      else
        match s.coordinator.accept call.devices with
        | .error _ => s
        | .ok () => { s with busy := s.busy.insert thread (.admitted call) }
  | .shutdown thread =>
      if s.busy.contains thread then s
      else { s with coordinator := s.coordinator.stop, busy := s.busy.insert thread .stopping }
  | .go thread =>
      match s.busy.get? thread with
      | none => s
      | some progress => s.proceed thread progress
  | .report seq device result => { s with coordinator := s.coordinator.report seq device result }
  | .cancel seq => { s with coordinator := (s.coordinator.cancel seq).2 }
  | .elapse milliseconds => { s with coordinator := s.coordinator.elapse milliseconds }
  | .watch crash? => s.watch crash?

/-- What comes of moves, one after the other. -/
def run (s : Threads) (ms : List Move) : Threads := ms.foldl move s

theorem run_concat (s : Threads) (ms : List Move) (m : Move) :
    s.run (ms ++ [m]) = (s.run ms).move m :=
  List.foldl_concat ..

/-! ## Calls with nobody in between -/

/-- **A start that nobody comes in between is the start of a coordinator.** -/
theorem run_start_alone (s : Threads) {thread : Nat} (hfree : s.busy.get? thread = none)
    (call : StartCall) :
    s.run [.start thread call, .go thread, .go thread, .go thread]
      = { s with
          coordinator := s.coordinator.handle
            (.start call.store call.devices call.mode call.query call.delay call.callback) } := by
  have hidle : s.busy.contains thread = false := by rw [Table.contains, hfree]; rfl
  cases haccept : s.coordinator.accept call.devices with
  | error e =>
      have hnone : s.move (.go thread) = s := by rw [move, hfree]
      simp only [run, List.foldl_cons, List.foldl_nil, handle, Coordinator.start, haccept,
        show s.move (.start thread call) = s by rw [move, hidle, haccept]; rfl, hnone]
  | ok _ =>
      simp only [run, List.foldl_cons, List.foldl_nil, move, hidle, haccept, Bool.false_eq_true,
        if_false, Table.get?_insert_self, proceed, Table.insert_insert, Table.erase_insert hfree,
        handle, Coordinator.start]
      rfl

/-- **A shutdown that nobody comes in between is the shutdown of a coordinator.** -/
theorem run_shutdown_alone (s : Threads) {thread : Nat} (hfree : s.busy.get? thread = none) :
    s.run [.shutdown thread, .go thread]
      = { s with coordinator := s.coordinator.handle .shutdown } := by
  have hidle : s.busy.contains thread = false := by rw [Table.contains, hfree]; rfl
  simp only [run, List.foldl_cons, List.foldl_nil, move, hidle, Bool.false_eq_true, if_false,
    Table.get?_insert_self, proceed, Table.erase_insert hfree]
  rfl

/-! ## What a move is to a request -/

/-- The request that a move registers. The time until its deadline can be over by then. -/
def registered? (s : Threads) : Move → Option Asked
  | .go thread =>
      match s.busy.get? thread with
      | some (.dated call seq deadline) =>
          some ⟨seq, call.devices, deadline - s.coordinator.clock, call.callback⟩
      | _ => none
  | _ => none

/-- What a move is to the request with a number, as an event at a coordinator. A request that the
watchdog does not come to for a crash is withdrawn. -/
def seen (s : Threads) (seq : Nat) : Move → Option Event
  | .go thread =>
      match s.busy.get? thread with
      | some .stopping => some .shutdown
      | _ => none
  | .report seq' device result => some (.report seq' device result)
  | .cancel seq' => some (.cancel seq')
  | .elapse milliseconds => some (.elapse milliseconds)
  | .watch crash? =>
      if s.watches then
        if (s.crash? crash?).any fun crash => s.coordinator.isDue seq && !crash.reaches seq then
          some (.cancel seq)
        else some .expire
      else none
  | .start .. | .shutdown _ => none

/-- What becomes of the view of a request at an event that may not concern it at all. -/
def viewAfter (v : View) (seq clock : Nat) : Option Event → View
  | some e => v.after seq clock e
  | none => v

theorem view_register (c : Coordinator) (seq seq' : Nat) (devices : List String) (deadline : Nat)
    (callback : Option String) :
    (c.register seq' devices deadline callback).view seq
      = if seq' = seq then
          { c.view seq with
            pending := some { devices := KeySet.ofList devices, deadline, callback } }
        else c.view seq :=
  view_insert c seq seq' _

theorem view_watch (s : Threads) (crash? : Option Crash) (seq : Nat) :
    (s.watch crash?).coordinator.view seq
      = viewAfter (s.coordinator.view seq) seq s.coordinator.clock
          (s.seen seq (.watch crash?)) := by
  rw [watch, seen]
  split
  · cases s.crash? crash? with
    | none => exact view_expire s.coordinator seq
    | some crash =>
        dsimp only [Option.any_some]
        rw [view_expireUpTo]
        split
        · exact (if_pos rfl).symm
        · exact view_expire s.coordinator seq
  · rfl

/-- **What becomes of a request at a move**, but for its own registration, does not depend on the
other requests. -/
theorem view_move (s : Threads) {seq : Nat} {m : Move}
    (hother : ∀ r, s.registered? m = some r → r.seq ≠ seq) :
    (s.move m).coordinator.view seq
      = viewAfter (s.coordinator.view seq) seq s.coordinator.clock (s.seen seq m) := by
  cases m with
  | start thread call =>
      rw [move]
      split
      · rfl
      · split <;> rfl
  | shutdown thread =>
      rw [move]
      split <;> rfl
  | go thread =>
      rw [move, seen]
      rw [registered?] at hother
      cases hp : s.busy.get? thread with
      | none => rfl
      | some progress =>
          rw [hp] at hother
          cases progress with
          | dated call seq' deadline =>
              exact (view_register s.coordinator seq seq' ..).trans (if_neg (hother _ rfl))
          | admitted | numbered | stopping => rfl
  | report seq' device result => exact view_report s.coordinator seq seq' device result
  | cancel seq' => exact view_cancel s.coordinator seq seq'
  | elapse milliseconds => rfl
  | watch crash? => exact s.view_watch crash? seq

/-- Whether a move concerns a request: its registration, its report, its cancellation, the turn of
the watchdog when it is due, and the second step of a shutdown. -/
def concerns (s : Threads) (seq : Nat) : Move → Bool
  | .go thread =>
      match s.busy.get? thread with
      | some (.dated _ seq' _) => seq' == seq
      | some .stopping => true
      | _ => false
  | .report seq' .. => seq' == seq
  | .cancel seq' => seq' == seq
  | .watch _ => s.watches && s.coordinator.isDue seq
  | .start .. | .shutdown _ | .elapse _ => false

theorem view_watch_of_not_due {s : Threads} {seq : Nat}
    (h : (s.watches && s.coordinator.isDue seq) = false) (crash? : Option Crash) :
    (s.watch crash?).coordinator.view seq = s.coordinator.view seq := by
  rw [watch]
  cases hwatches : s.watches with
  | false => rfl
  | true =>
      rw [hwatches, Bool.true_and] at h
      have hexpire := view_expire_of_not_due h
      cases s.crash? crash? with
      | none => exact hexpire
      | some crash =>
          refine (view_expireUpTo s.coordinator crash seq).trans ?_
          rw [h, Bool.false_and, if_neg Bool.false_ne_true, hexpire]

/-- **A move changes nothing about the requests that it does not concern.** -/
theorem view_move_of_not_concerned {s : Threads} {seq : Nat} {m : Move}
    (h : s.concerns seq m = false) : (s.move m).coordinator.view seq = s.coordinator.view seq := by
  cases m with
  | start thread call => exact s.view_move fun r hr => by cases hr
  | shutdown thread => exact s.view_move fun r hr => by cases hr
  | go thread =>
      rw [concerns] at h
      rw [move]
      cases hp : s.busy.get? thread with
      | none => rfl
      | some progress =>
          rw [hp] at h
          cases progress with
          | dated call seq' deadline =>
              have hne : seq' ≠ seq := beq_eq_false_iff_ne.mp h
              exact (view_register s.coordinator seq seq' ..).trans (if_neg hne)
          | stopping => cases h
          | admitted | numbered => rfl
  | report seq' device result => exact view_handle_of_not_concerned (e := .report ..) h
  | cancel seq' => exact view_handle_of_not_concerned (e := .cancel ..) h
  | elapse milliseconds => rfl
  | watch crash? => exact view_watch_of_not_due h crash?

end Threads

end PeerStore.Coordinator
