import PeerStore.Proofs.Store.Run

/-!
# Rollback

A rollback carries out the undo log or does nothing at all (`rollback_cases`). The invariant of a
transaction is that its log, carried out now, gives the contents at its start (`Undoable`): each
operation of this device keeps it, whether it succeeds or fails (`Undoable.handle`), and so does
every run of them. It follows that a rollback restores the backend, with its device index, and
that nobody hears of what happened in between (**`rollback_restores`**).
-/

set_option autoImplicit false

namespace PeerStore.Session

/-! ## One rollback -/

/-- The session after its transaction was undone and ended. -/
def undone (s : Session) : Session :=
  { s with
    backend := { s.backend with
      toTables := (s.backend.toTables.putAll s.transaction.log.records).removeAll
        s.transaction.log.created }
    transaction := { s.transaction with phase := .rolledBack, log := [] } }

theorem contents_undone {s : Session} (h : s.transaction.log.Sound) :
    s.undone.backend.contents = s.transaction.log.undo s.backend.contents :=
  h.contents_restore _

theorem indexed_undone {s : Session} (h : s.backend.Indexed) : s.undone.backend.Indexed :=
  (h.putAll _).removeAll _

/-- Carrying out a log fails only if there is something in it and the writes of the backend fail. -/
theorem restore_eq (s : Session) (log : UndoLog) :
    s.restore log
      = if log ≠ [] ∧ s.backend.failing = true then (.error Backend.writeFailure, s)
        else (.ok (), { s with
          backend := { s.backend with
            toTables := (s.backend.toTables.putAll log.records).removeAll log.created } }) := by
  unfold restore
  show (if (log.records.isEmpty && log.created.isEmpty) = true then _ else _) = _
  by_cases hlog : log = []
  · rw [if_pos (UndoLog.nothing_to_restore_iff.mpr hlog), if_neg (by simp [hlog]), hlog]
    rfl
  · rw [if_neg fun h => hlog (UndoLog.nothing_to_restore_iff.mp h)]
    by_cases hfail : s.backend.failing = true
    · rw [if_pos ⟨hlog, hfail⟩, Backend.restore, Backend.write, if_pos hfail]
    · rw [if_neg (by simp [hfail]), Backend.restore, Backend.write, if_neg hfail]
      rfl

/-- **A rollback undoes everything, or it fails with the backend and changes nothing.** -/
theorem rollback_eq {s : Session} (hopen : s.isOpen = true) (hactive : s.inTransaction = true) :
    s.rollback
      = if s.transaction.log ≠ [] ∧ s.backend.failing = true then (.error Backend.writeFailure, s)
        else (.ok (), s.undone) := by
  rw [inTransaction] at hactive
  rw [rollback, whenOpen_of_isOpen hopen]
  simp only [Transaction.undoLog, hactive, if_true, restore_eq]
  split
  · rename_i h
    split at h
    · obtain ⟨he, rfl⟩ := Prod.mk.inj h
      rw [if_pos ‹_›, Except.error.inj he]
    · simp at h
  · rename_i h
    split at h
    · simp at h
    · obtain ⟨-, rfl⟩ := Prod.mk.inj h
      rw [if_neg ‹_›]
      simp only [Transaction.rollback, Transaction.finish, hactive, if_true]
      rfl

theorem rollback_eq_ok {s : Session} (hopen : s.isOpen = true) (hactive : s.inTransaction = true)
    (hfail : s.backend.failing = false) : s.rollback = (.ok (), s.undone) := by
  rw [rollback_eq hopen hactive, if_neg]
  simp [hfail]

/-- A rollback that succeeds has undone a transaction. -/
theorem undone_of_rollback {s s' : Session} (h : s.rollback = (.ok (), s')) :
    s.inTransaction = true ∧ s' = s.undone := by
  obtain ⟨hopen, hop⟩ := whenOpen_eq_ok h
  by_cases hactive : s.inTransaction = true
  · rw [rollback_eq hopen hactive] at h
    split at h
    · exact absurd (Prod.mk.inj h).1 (by simp)
    · exact ⟨hactive, (Prod.mk.inj h).2.symm⟩
  · rw [inTransaction] at hactive
    simp only [Transaction.undoLog, hactive] at hop
    exact absurd (Prod.mk.inj hop).1 (by simp)

/-- Ending a transaction undoes everything if the backend accepts writes. -/
theorem abandon_eq {s : Session} (hactive : s.inTransaction = true)
    (hfail : s.backend.failing = false) : s.abandon = s.undone := by
  rw [inTransaction] at hactive
  have haccepts : ¬(s.transaction.log ≠ [] ∧ s.backend.failing = true) := by simp [hfail]
  unfold abandon
  simp only [Transaction.undoLog, hactive, if_true, restore_eq, if_neg haccepts,
    Transaction.rollback, Transaction.finish]
  rfl

/-- **Ending a transaction** undoes it, or does not where the backend refuses; it has ended in
either case. -/
theorem abandon_cases (s : Session) :
    (s.inTransaction = false ∧ s.abandon = s)
      ∨ s.inTransaction = true ∧
        (s.abandon = s.undone
          ∨ s.abandon = { s with
              transaction := { s.transaction with phase := .rolledBack, log := [] } }) := by
  unfold inTransaction abandon
  cases hactive : s.transaction.isActive with
  | false =>
      simp only [Transaction.undoLog, hactive, Bool.false_eq_true, if_false]
      exact .inl ⟨trivial, trivial⟩
  | true =>
      refine .inr ⟨rfl, ?_⟩
      simp only [Transaction.undoLog, hactive, if_true, restore_eq]
      by_cases hrefused : s.transaction.log ≠ [] ∧ s.backend.failing = true
      · simp only [if_pos hrefused, Transaction.rollback, Transaction.finish, hactive, if_true]
        exact .inr trivial
      · simp only [if_neg hrefused, Transaction.rollback, Transaction.finish, hactive, if_true]
        exact .inl rfl

/-- Ending a transaction concerns the backend and the transaction only. -/
theorem abandon_rest (s : Session) :
    s.abandon = { s with
      backend := s.abandon.backend, transaction := s.abandon.transaction } := by
  rcases s.abandon_cases with ⟨-, h⟩ | ⟨-, h | h⟩
  · rw [h]
  · rw [h]
    rfl
  · rw [h]

/-! ## The invariant of a transaction -/

/-- A session inside a transaction that began in `s₀`: its log, carried out now, gives what the
backend held then, and nobody has been told anything since. -/
structure Undoable (s₀ s : Session) : Prop where
  isOpen : s.isOpen = true
  active : s.inTransaction = true
  indexed : s.backend.Indexed
  sound : s.transaction.log.Sound
  undo : s.transaction.log.undo s.backend.contents = s₀.backend.contents
  published : s.published = s₀.published
  notifier : s.notifier = s₀.notifier

theorem undoable_start {s₀ s₁ : Session} (hindexed : s₀.backend.Indexed)
    (h : s₀.startTransaction = (.ok (), s₁)) : s₀.Undoable s₁ := by
  obtain ⟨hopen, -, rfl⟩ := startTransaction_eq_ok h
  exact ⟨hopen, rfl, hindexed, UndoLog.sound_nil, rfl, rfl, rfl⟩

namespace Undoable

variable {s₀ s s' : Session}

/-- A batch of this device is noted in the log before it is written. -/
theorem wrote (h : s₀.Undoable s) {batch : List Write} (hwrote : s.Wrote .here batch s') :
    s₀.Undoable s' where
  isOpen := hwrote.isOpen.trans h.isOpen
  active := hwrote.inTransaction.trans h.active
  indexed := hwrote.indexed h.indexed
  sound := by
    rw [hwrote.log_here h.active]
    exact h.sound.extend (Write.nodup_touched batch)
  undo := (hwrote.undo_here h.active).trans h.undo
  published := hwrote.published.trans h.published
  notifier := hwrote.notifier.trans h.notifier

/-- **Whatever an operation of this device does, and however it ends, it can be undone.** -/
theorem handle (h : s₀.Undoable s) {e : Event} (hlocal : e.isLocal = true) :
    s₀.Undoable (s.handle e) := by
  cases e with
  | perform now op =>
      rcases perform_here_cases h.active hlocal now with ⟨batch, hwrote⟩ | ⟨time, hfailed⟩
      · exact h.wrote hwrote
      · show s₀.Undoable (s.perform now op).2
        rw [hfailed]
        exact { h with }
  -- what happens outside is no part of the transaction
  | failWrites on => exact { h with }
  | register network device => exact { h with }
  | unregister network => exact { h with }

theorem run (h : s₀.Undoable s) {events : List Event} (hlocal : ∀ e ∈ events, e.isLocal = true) :
    s₀.Undoable (s.run events) := by
  induction events generalizing s with
  | nil => exact h
  | cons e events ih =>
      refine ih (h.handle (hlocal e List.mem_cons_self)) fun e' he' => ?_
      exact hlocal e' (List.mem_cons_of_mem e he')

/-- The records of the start determine the whole of the backend. -/
theorem toTables_undone (h : s₀.Undoable s) (hindexed : s₀.backend.Indexed) :
    s.undone.backend.toTables = s₀.backend.toTables := by
  refine (indexed_undone h.indexed).ext hindexed ?_
  rw [contents_undone h.sound, h.undo]

end Undoable

/-! ## Rollback after a run -/

theorem close_eq {s : Session} (hopen : s.isOpen = true) :
    s.close = { s.abandon with
      isOpen := false
      shelf := s.abandon.shelf.closeAll s.abandon.cursors.keys
      cursors := Table.empty
      notifier := s.abandon.notifier.shutdown.clearSubscriptions
      callback := none } := by
  rw [close, if_pos hopen]

/-- **A transaction of this device can be taken back.** Whatever it did, and whichever of its
operations failed: nobody was told. A rollback that succeeds leaves the backend as it was when the
transaction began. One that fails has changed nothing, and succeeds once the backend accepts writes
again. Closing the store has the same effect on a backend that accepts writes. -/
theorem rollback_restores {s₀ s₁ s₂ : Session} {events : List Event}
    (hback : s₀.backend.Reachable) (hstart : s₀.startTransaction = (.ok (), s₁))
    (hlocal : ∀ e ∈ events, e.isLocal = true) (hrun : s₁.run events = s₂) :
    (s₂.published = s₀.published ∧ s₂.notifier = s₀.notifier)
      ∧ (∀ s₃, s₂.rollback = (.ok (), s₃) →
          s₃.backend.toTables = s₀.backend.toTables ∧ s₃.inTransaction = false
          ∧ s₃.published = s₀.published ∧ s₃.notifier = s₀.notifier)
      ∧ (∀ e s₃, s₂.rollback = (.error e, s₃) →
          e = Backend.writeFailure ∧ s₂.backend.failing = true ∧ s₃ = s₂
          ∧ s₃.inTransaction = true
          ∧ ∃ s₄, (s₃.handle (.failWrites false)).rollback = (.ok (), s₄)
              ∧ s₄.backend.toTables = s₀.backend.toTables)
      ∧ (s₂.backend.failing = false →
          (∃ s₃, s₂.rollback = (.ok (), s₃))
          ∧ s₂.close.backend.toTables = s₀.backend.toTables ∧ s₂.close.inTransaction = false
          ∧ s₂.close.published = s₀.published) := by
  have hindexed := hback.indexed
  have hinv : s₀.Undoable s₂ := hrun ▸ (undoable_start hindexed hstart).run hlocal
  have hrollback := rollback_eq hinv.isOpen hinv.active
  refine ⟨⟨hinv.published, hinv.notifier⟩, ?_, ?_, ?_⟩
  · intro s₃ hok
    rw [hrollback] at hok
    split at hok
    · exact absurd (Prod.mk.inj hok).1 (by simp)
    · obtain ⟨-, rfl⟩ := Prod.mk.inj hok
      exact ⟨hinv.toTables_undone hindexed, rfl, hinv.published, hinv.notifier⟩
  · intro e s₃ herror
    rw [hrollback] at herror
    split at herror
    · rename_i hfail
      obtain ⟨he, rfl⟩ := Prod.mk.inj herror
      -- the retry is a rollback after one more event
      have hretry : s₀.Undoable (s₂.handle (.failWrites false)) := hinv.handle rfl
      exact ⟨(Except.error.inj he).symm, hfail.2, rfl, hinv.active, _,
        rollback_eq_ok hretry.isOpen hretry.active rfl, hretry.toTables_undone hindexed⟩
    · exact absurd (Prod.mk.inj herror).1 (by simp)
  · intro hfail
    rw [close_eq hinv.isOpen, abandon_eq hinv.active hfail]
    exact ⟨⟨_, rollback_eq_ok hinv.isOpen hinv.active hfail⟩, hinv.toTables_undone hindexed, rfl,
      hinv.published⟩

/-- A store that keeps devices apart is written over, robbed of the data of a peer and emptied, with
a failure in between. The rollback brings the data of both devices back. -/
theorem rollback_restores_both_devices :
    let ours : Blob := Blob.ofString "self" ++ [1]
    let theirs : Blob := Blob.ofString "peer" ++ [1]
    let tables := (Tables.put {} ours ⟨[10], 1, "self"⟩).put theirs ⟨[20], 2, "peer"⟩
    let s₀ : Session := { fresh .deviceCollaboration "self" with backend := { toTables := tables } }
    let events : List Event := [.perform 3 (.put [1] [11]), .register "net" "peer",
      .perform 4 (.removeDeviceData "net"), .failWrites true, .perform 5 (.delete [1]),
      .failWrites false, .perform 6 .clear, .perform 7 (.put [2] [30])]
    ∃ s₃, (s₀.startTransaction.2.run events).rollback = (.ok (), s₃)
      ∧ s₃.backend.toTables = tables ∧ s₃.published = [] := by
  intro ours theirs tables s₀ events
  have hback : s₀.backend.Reachable :=
    @Backend.Reachable.apply { toTables := Tables.put {} ours ⟨[10], 1, "self"⟩ } _
      [⟨theirs, [20]⟩] [] 2 "peer"
      (@Backend.Reachable.apply {} _ [⟨ours, [10]⟩] [] 1 "self" .empty rfl) rfl
  have hstart : s₀.startTransaction = (.ok (), s₀.startTransaction.2) := rfl
  have hlocal : ∀ e ∈ events, e.isLocal = true := by
    simp [events, Event.isLocal, Operation.writesHere]
  have haccepts : (s₀.startTransaction.2.run events).backend.failing = false := by decide +kernel
  obtain ⟨-, hok, -, hsucceeds⟩ := rollback_restores hback hstart hlocal rfl
  obtain ⟨⟨s₃, hs₃⟩, -⟩ := hsucceeds haccepts
  exact ⟨s₃, hs₃, (hok s₃ hs₃).1, (hok s₃ hs₃).2.2.1⟩

end PeerStore.Session
