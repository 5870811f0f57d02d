import PeerStore.Proofs.Store.Call
import PeerStore.Store.Transact

/-!
# Runs inside a transaction

Inside a transaction every operation that writes is a batch, also one that empties the store or
removes the data of a device (`Session.batchOf?`). **`perform_here_cases`** says all that such an
operation of this device can do: its batch was written and nobody was told, or it failed and
nothing changed but the time of the last write. A run is a list of events (`Session.run`), or, if
only the operations count that succeed, a trace of batches (`Session.Writes`).
-/

set_option autoImplicit false

namespace PeerStore

/-- Whether an operation writes as this device. -/
def Operation.writesHere : Operation → Bool
  | .put .. | .putBatch _ | .delete _ | .deleteBatch _ | .clear | .removeDeviceData _ => true
  | _ => false

/-- What can happen to a store: an operation at the time that the clock reads, writes of the backend
that begin or cease to fail, and devices that come and go. -/
inductive Event where
  | perform (now : Int) (op : Operation)
  | failWrites (on : Bool)
  | register (network device : String)
  | unregister (network : String)

/-- Whether no operation is performed but one that writes as this device. -/
def Event.isLocal : Event → Bool
  | .perform _ op => op.writesHere
  | _ => true

/-- Batches, with where they come from, in the order in which they were written. -/
abbrev Trace := List (Origin × List Write)

namespace Session

/-- The session after an event. -/
def handle (s : Session) : Event → Session
  | .perform now op => (s.perform now op).2
  | .failWrites on => { s with backend := { s.backend with failing := on } }
  | .register network device => { s with directory := s.directory.register network device }
  | .unregister network => { s with directory := (s.directory.unregister network).2 }

/-- The session after events, one after the other. -/
def run (s : Session) (events : List Event) : Session := events.foldl handle s

/-- The batch that an operation writes inside a transaction. -/
def batchOf? (s : Session) : Operation → Option (Origin × List Write)
  | .clear => some (.here, s.backend.snapshot.map fun r => .remove r.key)
  | .removeDeviceData network =>
      (s.directory.resolve? network).map fun device =>
        (.here, (s.backend.keysFromDevice device).map .remove)
  | op => op.batch? s.space

/-- Operations that write and succeed, one after the other, with the batches that they write. -/
inductive Writes : Session → Trace → Session → Prop where
  | nil (s : Session) : Writes s [] s
  | snoc {s t u : Session} {trace : Trace} {now : Int} {op : Operation} {answer : Answer}
      {origin : Origin} {batch : List Write} :
      Writes s trace t → t.batchOf? op = some (origin, batch) →
      t.perform now op = (.ok answer, u) → Writes s (trace ++ [(origin, batch)]) u

/-- An operation that writes goes on with a trace if it succeeds. -/
theorem Writes.next {s t : Session} {trace : Trace} (h : s.Writes trace t) (now : Int)
    {op : Operation} {b : Origin × List Write} (hbatch : t.batchOf? op = some b)
    (hok : (t.perform now op).1.isOk = true) : s.Writes (trace ++ [b]) (t.perform now op).2 := by
  cases hperform : t.perform now op with
  | mk result u =>
      rw [hperform] at hok
      cases result with
      | error e => exact absurd hok Bool.false_ne_true
      | ok answer => exact h.snoc hbatch hperform

/-! ## Operations inside a transaction -/

/-- A transaction starts on an open store with no other one active, with an empty log. -/
theorem startTransaction_eq_ok {s s' : Session} (h : s.startTransaction = (.ok (), s')) :
    s.isOpen = true ∧ s.inTransaction = false
      ∧ s' = { s with
          transaction := { phase := .active, id := s.transaction.id + 1, log := [] } } := by
  obtain ⟨hopen, hop⟩ := whenOpen_eq_ok h
  by_cases hactive : s.transaction.isActive = true
  · simp only [Transaction.start, hactive, if_true] at hop
    exact absurd (Prod.mk.inj hop).1 (by simp)
  · simp only [Transaction.start, if_neg hactive] at hop
    exact ⟨hopen, Bool.eq_false_iff.mpr hactive, (Prod.mk.inj hop).2.symm⟩

/-- Inside a transaction, emptying the store is a batch. -/
theorem clear_of_active {s : Session} (h : s.inTransaction = true) (now : Int) :
    s.clear now
      = s.whenOpen fun s => s.mutate now (s.backend.snapshot.map fun r => .remove r.key) .here := by
  rw [inTransaction] at h
  unfold clear whenOpen
  cases s.requireOpen with
  | error e => rfl
  | ok _ =>
      show (if s.transaction.isActive = true then _ else _) = _
      rw [if_pos h]
      rfl

/-- **A store that was emptied**: by a batch inside a transaction, and as a whole outside. -/
theorem clear_eq_ok {s s' : Session} {now : Int} (h : s.clear now = (.ok (), s')) :
    s.isOpen = true
      ∧ (s.inTransaction = true
            ∧ s.mutate now (s.backend.snapshot.map fun r => .remove r.key) .here = (.ok (), s')
          ∨ s.inTransaction = false
            ∧ s' = ({ s with backend := { s.backend with toTables := {} } } : Session).announce
                .here (s.clearNotice s.backend.snapshot)) := by
  obtain ⟨hopen, hop⟩ := whenOpen_eq_ok h
  refine ⟨hopen, ?_⟩
  by_cases hactive : s.inTransaction = true
  · rw [inTransaction] at hactive
    rw [if_pos hactive] at hop
    exact .inl ⟨hactive, hop⟩
  · rw [inTransaction] at hactive
    rw [if_neg hactive] at hop
    split at hop
    · rename_i hcleared
      obtain ⟨-, rfl, rfl⟩ := Backend.clear_eq_ok_iff.mp hcleared
      exact .inr ⟨Bool.eq_false_iff.mpr hactive, (Prod.mk.inj hop).2.symm⟩
    · exact absurd (Prod.mk.inj hop).1 (by simp)

/-- **A removal of the data of a device that succeeds** has found another device, and was a batch
whose notice was published. -/
theorem removeDeviceData_eq_ok {s s' : Session} {now : Int} {network : String}
    (h : s.removeDeviceData now network = (.ok (), s')) :
    ∃ device notice t, s.directory.resolve? network = some device ∧ device ≠ s.profile.device
      ∧ s.isOpen = true
      ∧ s.applyBatch now ((s.backend.keysFromDevice device).map .remove) .here = (.ok notice, t)
      ∧ s' = (t.publish .here notice).2 := by
  unfold removeDeviceData at h
  split at h
  · exact absurd (Prod.mk.inj h).1 (by simp)
  · rename_i device hdevice
    split at h
    · exact absurd (Prod.mk.inj h).1 (by simp)
    · rename_i hother
      obtain ⟨hopen, hop⟩ := whenOpen_eq_ok h
      split at hop
      · rename_i notice t happly
        exact ⟨device, notice, t, hdevice, hother, hopen, happly, (Prod.mk.inj hop).2.symm⟩
      · exact absurd (Prod.mk.inj hop).1 (by simp)

/-- Inside a transaction, removing the data of a device is a batch. -/
theorem removeDeviceData_of_active {s : Session} (h : s.inTransaction = true) (now : Int)
    {network device : String} (hdevice : s.directory.resolve? network = some device) :
    (∃ e, s.removeDeviceData now network = (.error e, s))
      ∨ s.removeDeviceData now network
        = s.mutate now ((s.backend.keysFromDevice device).map .remove) .here := by
  unfold removeDeviceData
  rw [hdevice]
  simp only
  split
  · exact .inl ⟨_, rfl⟩
  · right
    by_cases hopen : s.isOpen = true
    · rw [mutate, whenOpen_of_isOpen hopen, whenOpen_of_isOpen hopen]
      split
      · -- the notice is held back whichever way it would have gone
        rename_i happly
        obtain ⟨-, hwrote⟩ := applyBatch_eq_ok happly
        have hactive := hwrote.inTransaction.trans h
        rw [announce_of_active hactive]
        rw [inTransaction] at hactive
        simp [publish, hactive]
      · rfl
    · rw [mutate, whenOpen, whenOpen, requireOpen, if_neg hopen]
      rfl

/-- **Inside a transaction an operation that writes is refused, or it is its batch.** -/
theorem perform_batchOf? {s : Session} (hactive : s.inTransaction = true) {op : Operation}
    {origin : Origin} {batch : List Write} (h : s.batchOf? op = some (origin, batch)) (now : Int) :
    (∃ e, s.perform now op = (.error e, s))
      ∨ s.perform now op = (s.mutate now batch origin).answer fun _ => .done := by
  cases op with
  | clear =>
      cases h
      rw [perform, clear_of_active hactive]
      exact s.answer_after_cases _ _ _
  | removeDeviceData network =>
      obtain ⟨device, hdevice, hbatch⟩ := Option.map_eq_some_iff.mp h
      cases hbatch
      rw [perform]
      rcases removeDeviceData_of_active hactive now hdevice with ⟨e, he⟩ | hdone
      · exact .inl ⟨e, by rw [he]; rfl⟩
      · exact .inr (by rw [hdone])
  -- the other operations are the same batch inside a transaction as outside
  | _ =>
      simp only [batchOf?] at h
      exact perform_batch? h now

/-- An operation that writes and succeeds inside a transaction is its batch. -/
theorem mutate_of_perform_of_active {s s' : Session} (hactive : s.inTransaction = true)
    {op : Operation} {origin : Origin} {batch : List Write}
    (h : s.batchOf? op = some (origin, batch)) {now : Int} {answer : Answer}
    (hok : s.perform now op = (.ok answer, s')) : s.mutate now batch origin = (.ok (), s') := by
  rcases perform_batchOf? hactive h now with ⟨e, he⟩ | hdone
  · rw [he] at hok
    exact absurd (Prod.mk.inj hok).1 (by simp)
  · rw [hdone] at hok
    exact eq_ok_of_answer hok

/-- An operation of this device writes batches of this device. -/
theorem batchOf?_here {s : Session} {op : Operation} (hlocal : op.writesHere = true)
    {b : Origin × List Write} (h : s.batchOf? op = some b) : b.1 = .here := by
  cases op with
  | removeDeviceData network =>
      obtain ⟨device, -, rfl⟩ := Option.map_eq_some_iff.mp h
      rfl
  | put | putBatch | delete | deleteBatch | clear =>
      cases h
      rfl
  | _ => cases hlocal

/-- An operation of this device that makes no batch is refused: only the data of a device that
nobody knows makes none. -/
theorem perform_of_batchOf?_eq_none {s : Session} {op : Operation} (hlocal : op.writesHere = true)
    (h : s.batchOf? op = none) (now : Int) : ∃ e, s.perform now op = (.error e, s) := by
  cases op with
  | removeDeviceData network =>
      have hdevice : s.directory.resolve? network = none := Option.map_eq_none_iff.mp h
      refine ⟨unknownDevice network, ?_⟩
      rw [perform, removeDeviceData, hdevice]
      rfl
  | put | putBatch | delete | deleteBatch | clear => cases h
  | _ => cases hlocal

/-- **All that an operation of this device can do inside a transaction**: its batch was written and
nobody was told, or it failed and nothing changed but the time of the last write. -/
theorem perform_here_cases {s : Session} (hactive : s.inTransaction = true) {op : Operation}
    (hlocal : op.writesHere = true) (now : Int) :
    (∃ batch, s.Wrote .here batch (s.perform now op).2)
      ∨ ∃ time, (s.perform now op).2 = { s with lastWrite := time } := by
  have hrefused (h : ∃ e, s.perform now op = (.error e, s)) :
      ∃ time, (s.perform now op).2 = { s with lastWrite := time } := by
    obtain ⟨e, he⟩ := h
    exact ⟨s.lastWrite, by rw [he]⟩
  cases hbatch : s.batchOf? op with
  | none => exact .inr (hrefused (perform_of_batchOf?_eq_none hlocal hbatch now))
  | some b =>
      obtain ⟨origin, batch⟩ := b
      obtain rfl : origin = .here := batchOf?_here hlocal hbatch
      rcases perform_batchOf? hactive hbatch now with he | hdone
      · exact .inr (hrefused he)
      · cases hmutate : s.mutate now batch .here with
        | mk result t =>
            rw [hdone, hmutate]
            cases result with
            | error e => exact .inr ⟨t.lastWrite, (mutate_eq_error hmutate).rest⟩
            | ok _ =>
                obtain ⟨-, u, hwrote, rfl⟩ := mutate_eq_ok hmutate
                rw [announce_of_active (hwrote.inTransaction.trans hactive)]
                exact .inl ⟨batch, hwrote⟩

end Session

end PeerStore
