import PeerStore.Proofs.Store.Rollback

/-!
# Batches of other devices inside a transaction

Batches of other devices are applied while a transaction is active, and the log takes no note of
them. A rollback puts back what each key held when the transaction first touched it, so it keeps
the writes of other devices before that touch and takes back the later ones
(`rollback_values`). **`rollback_keeps_remote_iff`** says exactly when nothing that another device
wrote is lost.
-/

set_option autoImplicit false

namespace PeerStore

/-! ## Traces by key -/

namespace Trace

/-- The writes of other devices, in their order. -/
def remoteWrites (trace : Trace) : List Write := (trace.filter (·.1 != .here)).flatMap (·.2)

/-- Whether a batch was written here and touches a key. -/
def touchesHere (key : Blob) (b : Origin × List Write) : Bool :=
  b.1 == .here && (Write.touched b.2).contains key

/-- The batches before the first one written here that touches a key. -/
def untilTouched (trace : Trace) (key : Blob) : Trace := trace.takeWhile fun b => !touchesHere key b

/-- The batches from the first one on that was written here and touches a key. -/
def sinceTouched (trace : Trace) (key : Blob) : Trace := trace.dropWhile fun b => !touchesHere key b

theorem remoteWrites_append (trace more : Trace) :
    remoteWrites (trace ++ more) = trace.remoteWrites ++ more.remoteWrites := by
  rw [remoteWrites, List.filter_append, List.flatMap_append]
  rfl

variable {trace : Trace} {key : Blob}

/-- What comes after the first touch does not matter to what comes before it. -/
theorem untilTouched_append_of_touched (h : trace.any (touchesHere key) = true) (more : Trace) :
    untilTouched (trace ++ more) key = trace.untilTouched key := by
  induction trace with
  | nil => exact absurd h (by simp)
  | cons b trace ih =>
      rw [List.cons_append, untilTouched, untilTouched, List.takeWhile_cons, List.takeWhile_cons]
      by_cases hb : touchesHere key b = true
      · rw [hb]
        rfl
      · rw [if_pos (by simpa using hb), if_pos (by simpa using hb)]
        congr 1
        exact ih (by simpa [hb] using h)

theorem untilTouched_append_of_untouched (h : trace.any (touchesHere key) = false)
    (more : Trace) : untilTouched (trace ++ more) key = trace ++ more.untilTouched key := by
  rw [untilTouched, List.takeWhile_append_of_pos]
  · rfl
  · intro b hb
    rw [Bool.not_eq_true', ← Bool.not_eq_true]
    exact List.any_eq_false.mp h b hb

theorem untilTouched_of_untouched (h : trace.any (touchesHere key) = false) :
    trace.untilTouched key = trace := by
  have happend := untilTouched_append_of_untouched h []
  rwa [List.append_nil, show untilTouched [] key = [] from rfl, List.append_nil] at happend

/-- A batch of this device adds no writes of others, wherever it stands. -/
theorem remoteWrites_untilTouched_here (trace : Trace) (key : Blob) (batch : List Write) :
    (untilTouched (trace ++ [(.here, batch)]) key).remoteWrites
      = (trace.untilTouched key).remoteWrites := by
  cases h : trace.any (touchesHere key) with
  | true => rw [untilTouched_append_of_touched h]
  | false =>
      have hnone : (untilTouched [(.here, batch)] key).remoteWrites = [] := by
        rw [untilTouched, List.takeWhile_cons]
        split <;> rfl
      rw [untilTouched_append_of_untouched h, untilTouched_of_untouched h, remoteWrites_append,
        hnone, List.append_nil]

/-- A batch of another device adds its writes to the keys that were not touched here. -/
theorem remoteWrites_untilTouched_remote (h : trace.any (touchesHere key) = false)
    (device : String) (batch : List Write) :
    (untilTouched (trace ++ [(.remote device, batch)]) key).remoteWrites
      = (trace.untilTouched key).remoteWrites ++ batch := by
  have hone : (untilTouched [(.remote device, batch)] key).remoteWrites = batch :=
    List.append_nil batch
  rw [untilTouched_append_of_untouched h, untilTouched_of_untouched h, remoteWrites_append, hone]

end Trace

namespace Session

/-! ## The invariant -/

/-- A session inside a transaction that began in `s₀`, after the batches of a trace: the log notes
the keys that were touched here, and carried out now it gives each key the value that the writes
of other devices before the first touch left under it. -/
structure Interleaved (s₀ : Session) (trace : Trace) (s : Session) : Prop where
  isOpen : s.isOpen = true
  active : s.inTransaction = true
  sound : s.transaction.log.Sound
  notes : ∀ key, s.transaction.log.notes key = trace.any (Trace.touchesHere key)
  undo : ∀ key, (s.transaction.log.undo s.backend.contents key).map (·.value)
    = s₀.backend.values.valuesAfter (trace.untilTouched key).remoteWrites key

theorem interleaved_start {s₀ s₁ : Session} (h : s₀.startTransaction = (.ok (), s₁)) :
    s₀.Interleaved [] s₁ := by
  obtain ⟨hopen, -, rfl⟩ := startTransaction_eq_ok h
  exact ⟨hopen, rfl, UndoLog.sound_nil, fun _ => rfl, fun key => (s₀.backend.values_eq key).symm⟩

namespace Interleaved

variable {s₀ s s' : Session} {trace : Trace}

/-- A batch of this device is noted first, so it changes nothing in what the log puts back. -/
theorem wrote_here (h : s₀.Interleaved trace s) {batch : List Write}
    (hwrote : s.Wrote .here batch s') : s₀.Interleaved (trace ++ [(.here, batch)]) s' where
  isOpen := hwrote.isOpen.trans h.isOpen
  active := hwrote.inTransaction.trans h.active
  sound := by
    rw [hwrote.log_here h.active]
    exact h.sound.extend (Write.nodup_touched batch)
  notes key := by
    rw [hwrote.log_here h.active, Bool.eq_iff_iff, UndoLog.notes_extend, h.notes, List.any_append,
      Bool.or_eq_true]
    simp [Trace.touchesHere]
  undo key := by
    rw [hwrote.undo_here h.active, h.undo, Trace.remoteWrites_untilTouched_here]

/-- A batch of another device shows in what the log puts back, except under keys noted before. -/
theorem wrote_remote (h : s₀.Interleaved trace s) {device : String} {batch : List Write}
    (hwrote : s.Wrote (.remote device) batch s') :
    s₀.Interleaved (trace ++ [(.remote device, batch)]) s' := by
  have hlog : s'.transaction = s.transaction := hwrote.transaction
  refine ⟨hwrote.isOpen.trans h.isOpen, hwrote.inTransaction.trans h.active, ?_, fun key => ?_,
    fun key => ?_⟩
  · rw [hlog]
    exact h.sound
  · rw [hlog, h.notes, List.any_append]
    exact (Bool.or_false _).symm
  · rw [hlog]
    by_cases hnoted : s.transaction.log.notes key = true
    · -- the log holds on to what the key held at its first touch
      rw [UndoLog.undo_of_notes hnoted _ s.backend.contents, h.undo,
        Trace.untilTouched_append_of_touched (by rw [← h.notes, hnoted])]
    · have hnew : s.transaction.log.notes key = false := Bool.eq_false_iff.mpr hnoted
      have hbefore := h.undo key
      rw [UndoLog.undo_of_not_notes hnew, ← Backend.values_eq] at hbefore ⊢
      rw [Trace.remoteWrites_untilTouched_remote (by rw [← h.notes, hnew]), hwrote.values,
        Contents.valuesAfter_append]
      exact Contents.writeAll_congr batch hbefore

/-- Announcing a notice touches neither the backend nor the transaction. -/
theorem announce (h : s₀.Interleaved trace s) (origin : Origin) (notice : Notice) :
    s₀.Interleaved trace (s.announce origin notice) := by
  rw [announce_rest]
  exact { h with }

theorem writes {s₁ : Session} (h : s₀.Interleaved [] s₁) (hwrites : s₁.Writes trace s) :
    s₀.Interleaved trace s := by
  induction hwrites with
  | nil => exact h
  | @snoc _ _ _ _ _ _ origin _ _ hbatch hok ih =>
      have hmutate := mutate_of_perform_of_active ih.active hbatch hok
      obtain ⟨-, t, hwrote, rfl⟩ := mutate_eq_ok hmutate
      cases origin with
      | here => exact (ih.wrote_here hwrote).announce _ _
      | remote device => exact (ih.wrote_remote hwrote).announce _ _

end Interleaved

/-! ## Rollback after interleaved batches -/

/-- **What a rollback leaves** under each key: what the writes of other devices left there before
the transaction first touched it. -/
theorem rollback_values {s₀ s₁ s₂ s₃ : Session} {trace : Trace}
    (hstart : s₀.startTransaction = (.ok (), s₁)) (hwrites : s₁.Writes trace s₂)
    (hok : s₂.rollback = (.ok (), s₃)) (key : Blob) :
    s₃.backend.values key
      = s₀.backend.values.valuesAfter (trace.untilTouched key).remoteWrites key := by
  have hinv := (interleaved_start hstart).writes hwrites
  rw [rollback_eq hinv.isOpen hinv.active] at hok
  split at hok
  · exact absurd (Prod.mk.inj hok).1 (by simp)
  · obtain ⟨-, rfl⟩ := Prod.mk.inj hok
    rw [Backend.values_eq, contents_undone hinv.sound, hinv.undo]

/-- **When a rollback loses nothing that another device wrote.** It leaves what the batches of other
devices alone would have left exactly if, for each key, those that came after the first touch by
the transaction leave the key as those before it did. -/
theorem rollback_keeps_remote_iff {s₀ s₁ s₂ s₃ : Session} {trace : Trace}
    (hstart : s₀.startTransaction = (.ok (), s₁)) (hwrites : s₁.Writes trace s₂)
    (hok : s₂.rollback = (.ok (), s₃)) :
    s₃.backend.values = s₀.backend.values.valuesAfter trace.remoteWrites
      ↔ ∀ key,
          let touched := s₀.backend.values.valuesAfter (trace.untilTouched key).remoteWrites
          touched.valuesAfter (trace.sinceTouched key).remoteWrites key = touched key := by
  have hsplit (key : Blob) : trace.remoteWrites
      = (trace.untilTouched key).remoteWrites ++ (trace.sinceTouched key).remoteWrites := by
    rw [← Trace.remoteWrites_append, Trace.untilTouched, Trace.sinceTouched,
      List.takeWhile_append_dropWhile]
  rw [funext_iff]
  refine forall_congr' fun key => ?_
  rw [rollback_values hstart hwrites hok, hsplit key, Contents.valuesAfter_append, eq_comm]

/-- What another device writes before the transaction touches the key is kept. -/
theorem rollback_keeps_remote_before_touch :
    let t := (stocked.startTransaction.2.perform 2 (.applyRemote "peer" [⟨[1], [10]⟩] [])).2
    let s₂ := (t.perform 3 (.put [1] [20])).2
    ∃ s₃, s₂.rollback = (.ok (), s₃)
      ∧ s₃.backend.values = stocked.backend.values.valuesAfter [.put [1] [10]] := by
  intro t s₂
  have hwrites : stocked.startTransaction.2.Writes
      ([] ++ [(.remote "peer", [.put [1] [10]])] ++ [(.here, [.put [1] [20]])]) s₂ :=
    ((Writes.nil _).next 2 rfl (by decide +kernel)).next 3 rfl (by decide +kernel)
  have hok : s₂.rollback = (.ok (), s₂.undone) :=
    rollback_eq_ok (by decide +kernel) (by decide +kernel) (by decide +kernel)
  refine ⟨_, hok, (rollback_keeps_remote_iff rfl hwrites hok).mpr fun key => ?_⟩
  -- the batch from the other device stands first, so no touch is before it
  have hsince : (Trace.sinceTouched
      ([] ++ [(.remote "peer", [.put [1] [10]])] ++ [(.here, [.put [1] [20]])]) key).remoteWrites
      = [] := by
    show Trace.remoteWrites
      (List.dropWhile (fun b => !Trace.touchesHere key b) [(.here, [.put [1] [20]])]) = []
    rw [List.dropWhile_cons]
    split <;> rfl
  rw [hsince]
  rfl

/-- What another device writes after the transaction touched the key is lost. -/
theorem rollback_loses_remote_after_touch :
    let t := (stocked.startTransaction.2.perform 2 (.put [1] [20])).2
    let s₂ := (t.perform 3 (.applyRemote "peer" [⟨[1], [10]⟩] [])).2
    let trace : Trace := [(.here, [.put [1] [20]]), (.remote "peer", [.put [1] [10]])]
    stocked.startTransaction = (.ok (), stocked.startTransaction.2)
      ∧ stocked.startTransaction.2.Writes trace s₂ ∧ s₂.rollback = (.ok (), s₂.undone)
      ∧ s₂.undone.backend.values ≠ stocked.backend.values.valuesAfter trace.remoteWrites := by
  intro t s₂ trace
  refine ⟨rfl, ?_, ?_, fun h => ?_⟩
  · exact ((Writes.nil _).next 2 rfl (by decide +kernel)).next 3 rfl (by decide +kernel)
  · exact rollback_eq_ok (by decide +kernel) (by decide +kernel) (by decide +kernel)
  · -- the rollback brings the value from before back, but the other device has written since
    have hlost : s₂.undone.backend.values [1] = some [0] := by decide +kernel
    rw [h] at hlost
    exact absurd hlost (by decide +kernel)

end Session

end PeerStore
