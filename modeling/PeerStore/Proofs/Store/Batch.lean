import PeerStore.Proofs.Store.Effects
import PeerStore.Proofs.UndoLog
import PeerStore.Store.Operation

/-!
# Batches on a session

What a batch does to a session. `Session.Wrote` says what it means that a batch was written: the
contents after it, the keys that the transaction takes note of, and that nothing else changes. A
batch that succeeds was written and then announced (`mutate_eq_ok`), a batch that fails has
changed nothing but the time of the last write (`Session.Failed`, `mutate_eq_error`), and a batch
fails only if it has something to do and the backend does not accept it (`exists_mutate_eq_ok`).
-/

set_option autoImplicit false

namespace PeerStore

namespace Session

theorem touchAll_ofBatch (s : Session) (origin : Origin) (b : Backend) (batch : List Write) :
    (if origin = .here then s.touchAll (Effect.ofBatch b batch) else s)
      = { s with transaction := s.transaction.noteAll origin (Write.touched batch) b.get? } := by
  cases origin with
  | here =>
      rw [if_pos rfl, touchAll, Effect.ofBatch_eq, List.foldl_map]
      rfl
  | remote device => rfl

/-! ## Writing a batch -/

/-- A session after a batch was written to it, with nothing announced yet. The records that the
batch wrote carry the time of the last write. -/
structure Wrote (s : Session) (origin : Origin) (batch : List Write) (s' : Session) : Prop where
  contents : s'.backend.contents
    = s.backend.contents.writeAll (fun value => ⟨value, s'.lastWrite, s.deviceOf origin⟩) batch
  indexed : s.backend.Indexed → s'.backend.Indexed
  failing : s'.backend.failing = s.backend.failing
  idle : s.backend.failing = true → s.backend.values.Idle batch
  transaction :
    s'.transaction = s.transaction.noteAll origin (Write.touched batch) s.backend.get?
  rest : s' = { s with
    backend := s'.backend, lastWrite := s'.lastWrite, transaction := s'.transaction }

namespace Wrote

variable {s s' : Session} {origin : Origin} {batch : List Write}

theorem isOpen (h : s.Wrote origin batch s') : s'.isOpen = s.isOpen := by rw [h.rest]

theorem profile (h : s.Wrote origin batch s') : s'.profile = s.profile := by rw [h.rest]

theorem published (h : s.Wrote origin batch s') : s'.published = s.published := by rw [h.rest]

theorem notifier (h : s.Wrote origin batch s') : s'.notifier = s.notifier := by rw [h.rest]

/-- Writing a batch neither begins nor ends a transaction. -/
theorem inTransaction (h : s.Wrote origin batch s') : s'.inTransaction = s.inTransaction := by
  show s'.transaction.isActive = s.transaction.isActive
  rw [h.transaction, Transaction.isActive_noteAll (Write.nodup_touched batch)]

/-- What the log of an active transaction is after a batch of this device. -/
theorem log_here (h : s.Wrote .here batch s') (hactive : s.inTransaction = true) :
    s'.transaction.log = s.transaction.log.extend (Write.touched batch) s.backend.get? := by
  rw [h.transaction, Transaction.noteAll,
    Transaction.touchAll_of_active hactive (Write.nodup_touched batch)]

theorem contents_of_not_mem (h : s.Wrote origin batch s') {key : Blob}
    (hkey : key ∉ Write.touched batch) : s'.backend.contents key = s.backend.contents key := by
  rw [h.contents, Contents.writeAll_of_not_touched _ hkey]

/-- A key that the batch does not touch keeps its record. -/
theorem get?_of_not_mem (h : s.Wrote origin batch s') {key : Blob}
    (hkey : key ∉ Write.touched batch) : s'.backend.get? key = s.backend.get? key :=
  congrArg (Option.map (Record.ofStored key)) (h.contents_of_not_mem hkey)

/-- A key that the batch touches holds no record but one of the batch's device. -/
theorem device_of_mem (h : s.Wrote origin batch s') {key : Blob} (hkey : key ∈ Write.touched batch)
    {r : Record} (hr : s'.backend.get? key = some r) : r.device = s.deviceOf origin := by
  obtain ⟨stored, hstored, rfl⟩ := Option.map_eq_some_iff.mp hr
  rw [show s'.backend.records.get? key = s'.backend.contents key from rfl, h.contents,
    Contents.writeAll_eq_map_valuesAfter _ s.backend.values hkey] at hstored
  obtain ⟨value, -, rfl⟩ := Option.map_eq_some_iff.mp hstored
  rfl

theorem values (h : s.Wrote origin batch s') :
    s'.backend.values = s.backend.values.valuesAfter batch := by
  funext key
  rw [Backend.values_eq, h.contents, Contents.map_writeAll]
  refine Contents.writeAll_congr batch ?_
  rw [Backend.values_eq]

/-- **A batch of this device does not change what the log puts back.** -/
theorem undo_here (h : s.Wrote .here batch s') (hactive : s.inTransaction = true) :
    s'.transaction.log.undo s'.backend.contents
      = s.transaction.log.undo s.backend.contents := by
  rw [h.log_here hactive]
  exact UndoLog.undo_extend fun key => h.contents_of_not_mem

end Wrote

/-- The notice of a batch. -/
def noticeOf (s : Session) (batch : List Write) (origin : Origin) : Notice :=
  Notice.classify ((Effect.ofBatch s.backend batch).map (Effect.change s.space (s.deviceOf origin)))
    (s.deviceOf origin)

/-- What the backend does with the effects of a batch: nothing if there are none, else it carries
them out unless its writes fail. -/
theorem writeEffects_ofBatch (s : Session) (now : Int) (batch : List Write) (device : String) :
    s.writeEffects now (Effect.ofBatch s.backend batch) device
      = if s.backend.values.Idle batch then (.ok (), s)
        else if s.backend.failing = true then
          (.error Backend.writeFailure, { s with lastWrite := max now (s.lastWrite + 1) })
        else (.ok (),
          { s with
            lastWrite := max now (s.lastWrite + 1)
            backend := { s.backend with
              toTables := s.backend.toTables.carryOut (Effect.ofBatch s.backend batch)
                (max now (s.lastWrite + 1)) device } }) := by
  unfold writeEffects
  by_cases hidle : s.backend.values.Idle batch
  · rw [if_pos hidle, if_pos ((noEffect_iff s.backend batch).mpr hidle)]
  · rw [if_neg hidle, if_neg fun h => hidle ((noEffect_iff s.backend batch).mp h)]
    by_cases hfail : s.backend.failing = true
    · simp only [Backend.apply, Backend.write, hfail, if_true]
    · simp only [Backend.apply, Backend.write, if_neg hfail]
      rfl

/-- A batch that does nothing was written to a session that takes note of its keys only. -/
theorem Wrote.of_idle {s : Session} {batch : List Write} (h : s.backend.values.Idle batch)
    (origin : Origin) :
    s.Wrote origin batch { s with
      transaction := s.transaction.noteAll origin (Write.touched batch) s.backend.get? } := by
  refine ⟨?_, id, rfl, fun _ => h, rfl, rfl⟩
  funext key
  by_cases hkey : key ∈ Write.touched batch
  -- the backend is not asked, but its contents are those after the writes all the same
  · have hnone : s.backend.contents key = none := by
      have hbefore := (h key hkey).1
      rwa [Backend.values_eq, Option.map_eq_none_iff] at hbefore
    rw [Contents.writeAll_eq_map_valuesAfter _ s.backend.values hkey, (h key hkey).2]
    exact hnone
  · exact (Contents.writeAll_of_not_touched _ hkey).symm

/-- A batch whose effects the backend carries out was written. -/
theorem Wrote.of_carryOut {s : Session} {batch : List Write} (h : s.backend.failing = false)
    (origin : Origin) (time : Int) :
    s.Wrote origin batch { s with
      lastWrite := time
      backend := { s.backend with
        toTables := s.backend.toTables.carryOut (Effect.ofBatch s.backend batch) time
          (s.deviceOf origin) }
      transaction := s.transaction.noteAll origin (Write.touched batch) s.backend.get? } := by
  refine ⟨contents_carryOut s.backend batch time _, fun hi => hi.carryOut _ _ _, rfl, ?_, rfl, rfl⟩
  intro hfail
  rw [h] at hfail
  exact absurd hfail Bool.false_ne_true

/-- **A batch that was applied was written**, and its notice is settled by the session before. -/
theorem applyBatch_eq_ok {s s' : Session} {now : Int} {batch : List Write} {origin : Origin}
    {notice : Notice} (h : s.applyBatch now batch origin = (.ok notice, s')) :
    notice = s.noticeOf batch origin ∧ s.Wrote origin batch s' := by
  unfold applyBatch at h
  simp only [writeEffects_ofBatch] at h
  by_cases hidle : s.backend.values.Idle batch
  · rw [if_pos hidle] at h
    simp only [touchAll_ofBatch] at h
    obtain ⟨hnotice, rfl⟩ := Prod.mk.inj h
    exact ⟨(Except.ok.inj hnotice).symm, Wrote.of_idle hidle origin⟩
  · rw [if_neg hidle] at h
    by_cases hfail : s.backend.failing = true
    · rw [if_pos hfail] at h
      exact absurd (Prod.mk.inj h).1 (by simp)
    · rw [if_neg hfail] at h
      simp only [touchAll_ofBatch] at h
      obtain ⟨hnotice, rfl⟩ := Prod.mk.inj h
      exact ⟨(Except.ok.inj hnotice).symm,
        Wrote.of_carryOut (Bool.eq_false_iff.mpr hfail) origin _⟩

/-- A session after a call that failed with a status: it is what it was or, if the backend refused
to write, what it was with a later time of the last write. -/
inductive Failed (s : Session) : Status → Session → Prop where
  | kept (e : Status) : Failed s e s
  | refused {time : Int} : s.backend.failing = true → s.lastWrite < time →
      Failed s Backend.writeFailure { s with lastWrite := time }

/-- A call that failed has changed nothing but the time of the last write. -/
theorem Failed.rest {s s' : Session} {e : Status} (h : s.Failed e s') :
    s' = { s with lastWrite := s'.lastWrite } := by
  cases h with
  | kept | refused => rfl

/-- A batch is not applied only if it has something to do and the backend refuses it. -/
theorem applyBatch_eq_error {s s' : Session} {now : Int} {batch : List Write} {origin : Origin}
    {e : Status} (h : s.applyBatch now batch origin = (.error e, s')) :
    s.backend.failing = true ∧ ¬s.backend.values.Idle batch ∧ s.Failed e s' := by
  unfold applyBatch at h
  simp only [writeEffects_ofBatch] at h
  by_cases hidle : s.backend.values.Idle batch
  · rw [if_pos hidle] at h
    exact absurd (Prod.mk.inj h).1 (by simp)
  · rw [if_neg hidle] at h
    by_cases hfail : s.backend.failing = true
    · rw [if_pos hfail] at h
      obtain ⟨he, rfl⟩ := Prod.mk.inj h
      cases he
      exact ⟨hfail, hidle, .refused hfail (by omega)⟩
    · rw [if_neg hfail] at h
      exact absurd (Prod.mk.inj h).1 (by simp)

/-- A batch is applied if it does nothing or the backend accepts writes. -/
theorem exists_applyBatch_eq_ok {s : Session} {batch : List Write}
    (h : s.backend.failing = true → s.backend.values.Idle batch) (now : Int) (origin : Origin) :
    ∃ notice s', s.applyBatch now batch origin = (.ok notice, s') := by
  obtain ⟨result, s', happly⟩ : ∃ result s', s.applyBatch now batch origin = (result, s') :=
    ⟨_, _, rfl⟩
  cases result with
  | ok notice => exact ⟨notice, s', happly⟩
  | error e =>
      obtain ⟨hfail, hidle, -⟩ := applyBatch_eq_error happly
      exact absurd (h hfail) hidle

/-! ## Announcing a notice -/

/-- Starting a sync changes the transport only. -/
theorem startSync_rest (s : Session) (networks : List String) (mode : SyncMode) (delay : Nat)
    (query : Option Query) (callback : Option String) :
    (s.startSync networks mode delay query callback).2
      = { s with link := (s.startSync networks mode delay query callback).2.link } := by
  unfold startSync whenOpen after
  split
  · beta_reduce
    split <;> rfl
  · rfl

theorem pushOnline_rest (s : Session) : s.pushOnline = { s with link := s.pushOnline.link } := by
  unfold pushOnline
  split
  · exact startSync_rest s ..
  · rfl

/-- What is published reaches the observers, the list of what was published, and the transport;
nothing else changes. -/
theorem announce_rest (s : Session) (origin : Origin) (notice : Notice) :
    s.announce origin notice = { s with
      notifier := (s.announce origin notice).notifier
      published := (s.announce origin notice).published
      link := (s.announce origin notice).link } := by
  unfold announce publish
  -- published, and then perhaps pushed; or held back
  split
  · rename_i h
    split at h
    · simp at h
    · obtain ⟨-, rfl⟩ := Prod.mk.inj h
      split
      · rw [pushOnline_rest]
      · rfl
  · rename_i h
    split at h
    · obtain ⟨-, rfl⟩ := Prod.mk.inj h
      rfl
    · simp at h

theorem announce_backend (s : Session) (origin : Origin) (notice : Notice) :
    (s.announce origin notice).backend = s.backend := by
  rw [announce_rest]

/-- An empty notice is not announced. -/
theorem announce_of_isEmpty (s : Session) (origin : Origin) {notice : Notice}
    (h : notice.isEmpty = true) : s.announce origin notice = s := by
  simp [announce, publish, h]

/-- Inside a transaction nothing is announced of what was done here. -/
theorem announce_of_active {s : Session} (h : s.inTransaction = true) (notice : Notice) :
    s.announce .here notice = s := by
  rw [inTransaction] at h
  simp [announce, publish, h]

/-- Outside a transaction a notice is published exactly if it is not empty. -/
theorem announce_of_idle {s : Session} (h : s.inTransaction = false) (origin : Origin)
    (notice : Notice) :
    (s.announce origin notice).published
        = s.published ++ (if notice.isEmpty = true then [] else [(origin, notice)])
      ∧ (s.announce origin notice).notifier = (s.notifier.notify origin notice).2 := by
  by_cases hempty : notice.isEmpty = true
  · rw [announce_of_isEmpty s origin hempty, if_pos hempty, List.append_nil, Notifier.notify,
      if_pos hempty]
    exact ⟨rfl, rfl⟩
  · rw [if_neg hempty]
    rw [inTransaction] at h
    simp only [announce, publish, h, Bool.eq_false_iff.mpr hempty, Bool.false_and, Bool.or_false,
      Bool.false_eq_true, if_false]
    split
    · rw [pushOnline_rest]
      exact ⟨rfl, rfl⟩
    · exact ⟨rfl, rfl⟩

/-! ## Batches as a whole -/

/-- Performs an operation on an open store. -/
theorem whenOpen_of_isOpen {α : Type} {s : Session} (h : s.isOpen = true)
    (op : Session → Result α) : s.whenOpen op = op s := by
  rw [whenOpen, requireOpen, if_pos h]
  rfl

/-- What succeeds on a store only if it is open was done on an open store. -/
theorem whenOpen_eq_ok {α : Type} {s s' : Session} {op : Session → Result α} {a : α}
    (h : s.whenOpen op = (.ok a, s')) : s.isOpen = true ∧ op s = (.ok a, s') := by
  by_cases hopen : s.isOpen = true
  · rw [whenOpen_of_isOpen hopen] at h
    exact ⟨hopen, h⟩
  · rw [whenOpen, requireOpen, if_neg hopen] at h
    exact absurd (Prod.mk.inj h).1 (by simp)

/-- **A batch that succeeds was written, and its notice announced.** -/
theorem mutate_eq_ok {s s' : Session} {now : Int} {batch : List Write} {origin : Origin}
    (h : s.mutate now batch origin = (.ok (), s')) :
    s.isOpen = true ∧ ∃ t, s.Wrote origin batch t
      ∧ s' = t.announce origin (s.noticeOf batch origin) := by
  obtain ⟨hopen, hop⟩ := whenOpen_eq_ok h
  refine ⟨hopen, ?_⟩
  cases happly : s.applyBatch now batch origin with
  | mk result t =>
      rw [happly] at hop
      cases result with
      | error e => exact absurd (Prod.mk.inj hop).1 (by simp)
      | ok notice =>
          obtain ⟨hnotice, hwrote⟩ := applyBatch_eq_ok happly
          refine ⟨t, hwrote, ?_⟩
          rw [← hnotice]
          exact (Prod.mk.inj hop).2.symm

/-- What fails on an open store only failed for being closed, or failed on an open store. -/
theorem whenOpen_eq_error {α : Type} {s s' : Session} {op : Session → Result α} {e : Status}
    (h : s.whenOpen op = (.error e, s')) :
    s' = s ∨ s.isOpen = true ∧ op s = (.error e, s') := by
  by_cases hopen : s.isOpen = true
  · rw [whenOpen_of_isOpen hopen] at h
    exact .inr ⟨hopen, h⟩
  · rw [whenOpen, requireOpen, if_neg hopen] at h
    exact .inl (Prod.mk.inj h).2.symm

/-- A batch that fails has changed nothing but the time of the last write. -/
theorem mutate_eq_error {s s' : Session} {now : Int} {batch : List Write} {origin : Origin}
    {e : Status} (h : s.mutate now batch origin = (.error e, s')) : s.Failed e s' := by
  rcases whenOpen_eq_error h with rfl | ⟨-, hop⟩
  · exact .kept e
  · cases happly : s.applyBatch now batch origin with
    | mk result t =>
        rw [happly] at hop
        cases result with
        | ok notice => exact absurd (Prod.mk.inj hop).1 (by simp)
        | error e' =>
            obtain ⟨he, rfl⟩ := Prod.mk.inj hop
            cases he
            exact (applyBatch_eq_error happly).2.2

/-- **A batch succeeds on an open store if it does nothing or the backend accepts writes.** -/
theorem exists_mutate_eq_ok {s : Session} {batch : List Write} (hopen : s.isOpen = true)
    (h : s.backend.failing = true → s.backend.values.Idle batch) (now : Int) (origin : Origin) :
    ∃ s', s.mutate now batch origin = (.ok (), s') := by
  obtain ⟨notice, t, happly⟩ := exists_applyBatch_eq_ok h now origin
  refine ⟨t.announce origin notice, ?_⟩
  rw [mutate, whenOpen_of_isOpen hopen, happly]

end Session

end PeerStore
