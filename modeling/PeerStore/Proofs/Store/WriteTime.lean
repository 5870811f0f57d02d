import PeerStore.Proofs.Store.Records

/-!
# Times of batches

A batch that has something to do is written at the reading of the clock or, where that would not be
later than the last batch, right behind the last batch (`lastWrite_of_timedBatch?`). Nothing takes
the time of the last write back, so batches get later times than all batches before them, whatever
the clock reads (**`pairwise_times`**). A batch that the backend refuses leaves a gap.
-/

set_option autoImplicit false

namespace PeerStore.Session

variable {s s' : Session} {now : Int} {origin : Origin} {batch : List Write}

/-! ## Batches and their times -/

/-- The batch that a call writes at one time. Outside a transaction a store is emptied as a whole,
and that takes no time. -/
def timedBatch? (s : Session) : Operation → Option (List Write)
  | .clear => if s.inTransaction then (s.batchOf? .clear).map (·.2) else none
  | op => (s.batchOf? op).map (·.2)

/-- The time at which an event writes a batch, if it does: the call succeeds, and its batch has
something to do. -/
def writtenAt? (s : Session) : Event → Option Int
  | .perform now op =>
      (s.timedBatch? op).bind fun batch =>
        if (s.perform now op).1.isOk = true ∧ ¬s.backend.values.Idle batch then
          some (s.perform now op).2.lastWrite
        else none
  | _ => none

/-- The times at which the events of a run write batches. -/
def times (s : Session) : List Event → List (Option Int)
  | [] => []
  | e :: events => s.writtenAt? e :: (s.handle e).times events

theorem writtenAt?_eq_some_iff {op : Operation} {time : Int} :
    s.writtenAt? (.perform now op) = some time ↔
      ∃ batch, s.timedBatch? op = some batch ∧ (s.perform now op).1.isOk = true
        ∧ ¬s.backend.values.Idle batch ∧ (s.perform now op).2.lastWrite = time := by
  rw [writtenAt?, Option.bind_eq_some_iff]
  refine exists_congr fun batch => and_congr_right fun _ => ?_
  split
  · rename_i h
    simp [h]
  · rename_i h
    constructor
    · intro hnone
      cases hnone
    · rintro ⟨hok, hbusy, -⟩
      exact absurd ⟨hok, hbusy⟩ h

/-! ## One call -/

theorem lastWrite_announce (s : Session) (origin : Origin) (n : Notice) :
    (s.announce origin n).lastWrite = s.lastWrite := by
  rw [announce_rest]

theorem lastWrite_publish (s : Session) (origin : Origin) (n : Notice) :
    (s.publish origin n).2.lastWrite = s.lastWrite := by
  rw [publish]
  split <;> rfl

/-- **A batch takes a time if it has something to do**, whether or not the backend accepts it. -/
theorem lastWrite_applyBatch (s : Session) (now : Int) (batch : List Write) (origin : Origin) :
    (s.applyBatch now batch origin).2.lastWrite
      = if s.backend.values.Idle batch then s.lastWrite else max now (s.lastWrite + 1) := by
  rw [applyBatch]
  simp only [writeEffects_ofBatch]
  by_cases hidle : s.backend.values.Idle batch
  · rw [if_pos hidle, if_pos hidle]
    simp only [touchAll_ofBatch]
  · rw [if_neg hidle, if_neg hidle]
    by_cases hfail : s.backend.failing = true
    · rw [if_pos hfail]
    · rw [if_neg hfail]
      simp only [touchAll_ofBatch]

theorem lastWrite_of_mutate (h : s.mutate now batch origin = (.ok (), s')) :
    s'.lastWrite
      = if s.backend.values.Idle batch then s.lastWrite else max now (s.lastWrite + 1) := by
  obtain ⟨-, hop⟩ := whenOpen_eq_ok h
  rw [← lastWrite_applyBatch s now batch origin]
  cases happly : s.applyBatch now batch origin with
  | mk result t =>
      rw [happly] at hop
      cases result with
      | error e => exact absurd (Prod.mk.inj hop).1 (by simp)
      | ok notice =>
          rw [← (Prod.mk.inj hop).2]
          exact t.lastWrite_announce origin notice

theorem lastWrite_of_removeDeviceData {network device : String}
    (hdevice : s.directory.resolve? network = some device)
    (h : s.removeDeviceData now network = (.ok (), s')) :
    s'.lastWrite
      = if s.backend.values.Idle ((s.backend.keysFromDevice device).map .remove) then s.lastWrite
        else max now (s.lastWrite + 1) := by
  obtain ⟨found, notice, t, hfound, -, -, happly, rfl⟩ := removeDeviceData_eq_ok h
  obtain rfl : found = device := Option.some.inj (hfound.symm.trans hdevice)
  rw [← lastWrite_applyBatch s now _ .here, happly]
  exact t.lastWrite_publish .here notice

/-- **The time of a batch**: what the clock reads, but later than the last batch. -/
theorem lastWrite_of_timedBatch? {op : Operation} {answer : Answer}
    (h : s.timedBatch? op = some batch) (hok : s.perform now op = (.ok answer, s')) :
    s'.lastWrite
      = if s.backend.values.Idle batch then s.lastWrite else max now (s.lastWrite + 1) := by
  cases op with
  | put | putBatch | delete | deleteBatch | applyRemote =>
      cases h
      exact lastWrite_of_mutate (mutate_of_perform rfl hok)
  | clear =>
      by_cases hactive : s.inTransaction = true
      · rw [timedBatch?, if_pos hactive] at h
        cases h
        exact lastWrite_of_mutate (mutate_of_perform_of_active hactive rfl hok)
      · rw [timedBatch?, if_neg hactive] at h
        cases h
  | removeDeviceData network =>
      have hbatch : (s.batchOf? (.removeDeviceData network)).map (·.2) = some batch := h
      rw [batchOf?, Option.map_map, Option.map_eq_some_iff] at hbatch
      obtain ⟨device, hdevice, rfl⟩ := hbatch
      exact lastWrite_of_removeDeviceData hdevice (eq_ok_of_answer hok)
  | _ => exact absurd h (by simp [timedBatch?, batchOf?, Operation.batch?])

/-- To empty a store outside a transaction takes no time. -/
theorem lastWrite_of_clear (hidle : s.inTransaction = false) (h : s.clear now = (.ok (), s')) :
    s'.lastWrite = s.lastWrite := by
  obtain ⟨-, ⟨hactive, -⟩ | ⟨-, rfl⟩⟩ := clear_eq_ok h
  · exact absurd (hidle.symm.trans hactive) Bool.false_ne_true
  · rw [lastWrite_announce]

/-- A call that succeeds and writes no batch takes no time. -/
theorem lastWrite_of_timedBatch?_eq_none {op : Operation} {answer : Answer}
    (hop : op.isChange = true) (h : s.timedBatch? op = none)
    (hok : s.perform now op = (.ok answer, s')) : s'.lastWrite = s.lastWrite := by
  cases op with
  | put | putBatch | delete | deleteBatch | applyRemote => cases h
  | clear =>
      have hidle : s.inTransaction = false := by
        rw [Bool.eq_false_iff]
        intro hactive
        rw [timedBatch?, if_pos hactive] at h
        cases h
      exact lastWrite_of_clear hidle (eq_ok_of_answer hok)
  | removeDeviceData network =>
      have hnone : s.batchOf? (.removeDeviceData network) = none := Option.map_eq_none_iff.mp h
      obtain ⟨e, herror⟩ := perform_of_batchOf?_eq_none rfl hnone now
      rw [herror] at hok
      exact absurd (Prod.mk.inj hok).1 (by simp)
  | startTransaction =>
      obtain ⟨-, -, rfl⟩ := startTransaction_eq_ok (eq_ok_of_answer hok)
      rfl
  | commit =>
      obtain ⟨-, rfl⟩ := commit_eq_ok (eq_ok_of_answer hok)
      exact lastWrite_announce _ _ _
  | rollback =>
      obtain ⟨-, rfl⟩ := undone_of_rollback (eq_ok_of_answer hok)
      rfl
  | _ => cases hop

/-! ## Runs -/

/-- **Nothing takes the time of the last write back.** -/
theorem lastWrite_le_handle (s : Session) (e : Event) : s.lastWrite ≤ (s.handle e).lastWrite := by
  cases e with
  | failWrites | register | unregister => exact Int.le_refl _
  | perform now op =>
      show s.lastWrite ≤ (s.perform now op).2.lastWrite
      cases hop : op.isChange with
      | false =>
          rw [perform_aside hop now]
      | true =>
          cases hperform : s.perform now op with
          | mk result t =>
              cases result with
              | error e =>
                  cases perform_eq_error hop hperform with
                  | kept => exact Int.le_refl _
                  | refused _ hlater => exact Int.le_of_lt hlater
              | ok answer =>
                  cases htimed : s.timedBatch? op with
                  | none =>
                      have htime := lastWrite_of_timedBatch?_eq_none hop htimed hperform
                      exact Int.le_of_eq htime.symm
                  | some batch =>
                      have htime := lastWrite_of_timedBatch? htimed hperform
                      show s.lastWrite ≤ t.lastWrite
                      split at htime <;> omega

/-- A batch is written later than all that was written before. -/
theorem lastWrite_lt_of_writtenAt? {e : Event} {time : Int} (h : s.writtenAt? e = some time) :
    s.lastWrite < time ∧ time = (s.handle e).lastWrite := by
  cases e with
  | failWrites | register | unregister => cases h
  | perform now op =>
      obtain ⟨batch, htimed, hisOk, hbusy, rfl⟩ := writtenAt?_eq_some_iff.mp h
      obtain ⟨answer, t, hperform⟩ := exists_eq_ok hisOk
      have htime := lastWrite_of_timedBatch? htimed hperform
      rw [if_neg hbusy] at htime
      refine ⟨?_, rfl⟩
      rw [hperform]
      show s.lastWrite < t.lastWrite
      omega

theorem lastWrite_lt_of_mem_times {events : List Event} {time : Int}
    (h : some time ∈ s.times events) : s.lastWrite < time := by
  induction events generalizing s with
  | nil => exact absurd h List.not_mem_nil
  | cons e events ih =>
      rcases List.mem_cons.mp h with hfirst | hlater
      · exact (lastWrite_lt_of_writtenAt? hfirst.symm).1
      · calc
          s.lastWrite ≤ (s.handle e).lastWrite := s.lastWrite_le_handle e
          _ < time := ih hlater

/-- **Batches are written at later and later times.** -/
theorem pairwise_times (s : Session) (events : List Event) :
    (s.times events).Pairwise fun a b => ∀ t ∈ a, ∀ u ∈ b, t < u := by
  induction events generalizing s with
  | nil => exact List.Pairwise.nil
  | cons e events ih =>
      refine List.pairwise_cons.mpr ⟨?_, ih _⟩
      intro b hb t ht u hu
      obtain rfl : b = some u := hu
      obtain ⟨-, rfl⟩ := lastWrite_lt_of_writtenAt? ht
      exact lastWrite_lt_of_mem_times hb

theorem length_times (s : Session) (events : List Event) :
    (s.times events).length = events.length := by
  induction events generalizing s with
  | nil => rfl
  | cons e events ih => exact congrArg (· + 1) (ih _)

end PeerStore.Session
