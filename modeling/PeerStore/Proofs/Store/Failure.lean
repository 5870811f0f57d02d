import PeerStore.Proofs.Store.Rollback

/-!
# Calls that fail

Every call that is to change a store either does all it was asked to do or nothing at all. What a
call that failed may leave behind is `Session.Failed`: the session from before, with a later time of
the last write if it was the backend that refused. Each operation fails in this way only, whatever
the reason, and so does every call (**`perform_error_changes_nothing`**).
-/

set_option autoImplicit false

namespace PeerStore

/-- Whether an operation is to change the entries of a store or its transaction. -/
def Operation.isChange : Operation → Bool
  | .put .. | .putBatch _ | .delete _ | .deleteBatch _ | .clear | .removeDeviceData _
  | .applyRemote .. | .startTransaction | .commit | .rollback => true
  | _ => false

namespace Session

/-! ## One operation -/

/-- An answer is a failure only if the operation failed. -/
theorem eq_error_of_answer {α : Type} {r : Result α} {f : α → Answer} {e : Status} {s' : Session}
    (h : r.answer f = (.error e, s')) : r = (.error e, s') := by
  obtain ⟨result, s⟩ := r
  cases result with
  | ok a => exact absurd (Prod.mk.inj h).1 (by simp)
  | error e' =>
      obtain ⟨he, rfl⟩ := Prod.mk.inj h
      cases he
      rfl

/-- A call that is refused or is its batch fails as the batch does. -/
theorem failed_of_batch {s s' : Session} {now : Int} {origin : Origin} {batch : List Write}
    {r : Result Answer} {e : Status}
    (hcases : (∃ e', r = (.error e', s))
      ∨ r = (s.mutate now batch origin).answer fun _ => .done)
    (h : r = (.error e, s')) : s.Failed e s' := by
  rcases hcases with ⟨e', hrefused⟩ | hbatch
  · rw [hrefused] at h
    obtain ⟨-, rfl⟩ := Prod.mk.inj h
    exact .kept e
  · rw [hbatch] at h
    exact mutate_eq_error (eq_error_of_answer h)

/-- The store is emptied as a whole or by a batch; both leave everything if the backend refuses. -/
theorem clear_eq_error {s s' : Session} {now : Int} {e : Status}
    (h : s.clear now = (.error e, s')) : s.Failed e s' := by
  rcases whenOpen_eq_error h with rfl | ⟨-, hop⟩
  · exact .kept e
  · split at hop
    · exact mutate_eq_error hop
    · split at hop
      · exact absurd (Prod.mk.inj hop).1 (by simp)
      · obtain ⟨-, rfl⟩ := Prod.mk.inj hop
        exact .kept e

/-- The data of a device are removed by a batch, once the device is known to be another one. -/
theorem removeDeviceData_eq_error {s s' : Session} {now : Int} {network : String} {e : Status}
    (h : s.removeDeviceData now network = (.error e, s')) : s.Failed e s' := by
  unfold removeDeviceData at h
  split at h
  · obtain ⟨-, rfl⟩ := Prod.mk.inj h
    exact .kept e
  · split at h
    · obtain ⟨-, rfl⟩ := Prod.mk.inj h
      exact .kept e
    · rcases whenOpen_eq_error h with rfl | ⟨-, hop⟩
      · exact .kept e
      · split at hop
        · exact absurd (Prod.mk.inj hop).1 (by simp)
        · rename_i happly
          obtain ⟨he, rfl⟩ := Prod.mk.inj hop
          cases he
          exact (applyBatch_eq_error happly).2.2

theorem startTransaction_eq_error {s s' : Session} {e : Status}
    (h : s.startTransaction = (.error e, s')) : s' = s := by
  rcases whenOpen_eq_error h with rfl | ⟨-, hop⟩
  · rfl
  · split at hop
    · exact absurd (Prod.mk.inj hop).1 (by simp)
    · exact (Prod.mk.inj hop).2.symm

/-- A commit fails only for want of a transaction. -/
theorem commit_eq_error {s s' : Session} {e : Status} (h : s.commit = (.error e, s')) :
    s' = s := by
  rcases whenOpen_eq_error h with rfl | ⟨-, hop⟩
  · rfl
  · split at hop
    · exact (Prod.mk.inj hop).2.symm
    · exact (Prod.mk.inj hop).2.symm
    · exact absurd (Prod.mk.inj hop).1 (by simp)

/-- A rollback fails for want of a transaction, or because the backend refuses; the log is whole
in either case. -/
theorem rollback_eq_error {s s' : Session} {e : Status} (h : s.rollback = (.error e, s')) :
    s' = s := by
  rcases whenOpen_eq_error h with rfl | ⟨hopen, hop⟩
  · rfl
  · by_cases hactive : s.inTransaction = true
    · rw [rollback_eq hopen hactive] at h
      split at h
      · exact (Prod.mk.inj h).2.symm
      · exact absurd (Prod.mk.inj h).1 (by simp)
    · rw [inTransaction] at hactive
      simp only [Transaction.undoLog, hactive] at hop
      exact (Prod.mk.inj hop).2.symm

/-! ## Every call -/

/-- **However a call fails, it fails as a whole.** -/
theorem perform_eq_error {s s' : Session} {now : Int} {op : Operation} {e : Status}
    (hop : op.isChange = true) (h : s.perform now op = (.error e, s')) : s.Failed e s' := by
  cases op with
  | put | putBatch | delete | deleteBatch | applyRemote =>
      exact failed_of_batch (perform_batch? rfl now) h
  | clear => exact clear_eq_error (eq_error_of_answer h)
  | removeDeviceData network => exact removeDeviceData_eq_error (eq_error_of_answer h)
  | startTransaction => exact startTransaction_eq_error (eq_error_of_answer h) ▸ .kept e
  | commit => exact commit_eq_error (eq_error_of_answer h) ▸ .kept e
  | rollback => exact rollback_eq_error (eq_error_of_answer h) ▸ .kept e
  | _ => cases hop

/-- **A call that fails changes nothing**: the records of the backend and their device index, the
transaction with its undo log, the observers, the cursors given out and what was published are what
they were. Only the time of the last write may have moved on, and only if the backend refused to
write. -/
theorem perform_error_changes_nothing {s s' : Session} {now : Int} {op : Operation} {e : Status}
    (hop : op.isChange = true) (h : s.perform now op = (.error e, s')) :
    s' = { s with lastWrite := s'.lastWrite }
      ∧ s.lastWrite ≤ s'.lastWrite
      ∧ (s'.lastWrite ≠ s.lastWrite → e = Backend.writeFailure ∧ s.backend.failing = true) := by
  have hfailed := perform_eq_error hop h
  refine ⟨hfailed.rest, ?_⟩
  cases hfailed with
  | kept => exact ⟨Int.le_refl _, fun hne => absurd rfl hne⟩
  | refused hfail hlater => exact ⟨Int.le_of_lt hlater, fun _ => ⟨rfl, hfail⟩⟩

/-- Inside a transaction that has touched a key, a batch with a bad key in the middle is refused,
and a good batch fails with the backend. The log keeps its one entry, and nobody is told. -/
theorem perform_error_keeps_undo_log :
    let s := (stocked.startTransaction.2.perform 2 (.put [1] [10])).2.handle (.failWrites true)
    let bad : Operation := .putBatch [⟨[2], [20]⟩, ⟨[], [30]⟩, ⟨[1], [40]⟩]
    let good : Operation := .putBatch [⟨[2], [20]⟩, ⟨[1], [40]⟩]
    (∃ s', s.perform 3 bad = (.error KeyError.empty.status, s') ∧ s' = s)
      ∧ ∃ s', s.perform 3 good = (.error Backend.writeFailure, s')
        ∧ s'.backend = s.backend ∧ s'.transaction = s.transaction ∧ s'.published = []
        ∧ s'.lastWrite = 3 := by
  intro s bad good
  have hbad : s.perform 3 bad = (.error KeyError.empty.status, (s.perform 3 bad).2) := rfl
  have hgood : s.perform 3 good = (.error Backend.writeFailure, (s.perform 3 good).2) := rfl
  obtain ⟨hsame, -, htime⟩ := perform_error_changes_nothing rfl hbad
  obtain ⟨hsame', -, -⟩ := perform_error_changes_nothing rfl hgood
  refine ⟨⟨_, hbad, ?_⟩, _, hgood, ?_, ?_, ?_, ?_⟩
  · -- it was not the backend that refused the first batch
    have hkept : (s.perform 3 bad).2.lastWrite = s.lastWrite := by
      by_contra hne
      exact absurd (htime hne).1 (by decide)
    rw [hsame, hkept]
  · rw [hsame']
  · rw [hsame']
  · rw [hsame']
    decide +kernel
  · decide +kernel

end Session

end PeerStore
