import PeerStore.Proofs.Store.Run

/-!
# Commit

A transaction adds its batches up: what it has written, and what its log has noted, is at every
moment what one batch of all its writes would have written and touched (`Accumulated`). So a
commit announces the very notice of that one batch, although it finds it in another way: from the
log and from what the backend holds now (**`commit_announces_one_batch`**).
-/

set_option autoImplicit false

namespace PeerStore

/-- The value under each key, with the device that wrote it. -/
def Backend.owned (b : Backend) : Contents (Blob × String) := fun key =>
  (b.contents key).map fun s => (s.value, s.device)

/-- Batches that do nothing do nothing together. -/
theorem Contents.Idle.append {c : Contents Blob} {batch more : List Write} (h : c.Idle batch)
    (hmore : (c.valuesAfter batch).Idle more) : c.Idle (batch ++ more) := by
  rw [h.valuesAfter_eq] at hmore
  intro key hkey
  rw [Contents.valuesAfter_append, h.valuesAfter_eq]
  by_cases hm : key ∈ Write.touched more
  · exact hmore key hm
  · have hb : key ∈ Write.touched batch := by
      rw [Write.touched_append, List.mem_append] at hkey
      exact hkey.resolve_right fun hfilter => hm (List.mem_of_mem_filter hfilter)
    refine ⟨(h key hb).1, ?_⟩
    rw [Contents.valuesAfter, Contents.writeAll_of_not_touched _ hm]
    exact (h key hb).1

namespace Session

theorem Wrote.owned {s s' : Session} {origin : Origin} {batch : List Write}
    (h : s.Wrote origin batch s') :
    s'.backend.owned
      = s.backend.owned.writeAll (fun value => (value, s.deviceOf origin)) batch := by
  funext key
  rw [Backend.owned, h.contents, Contents.map_writeAll]
  rfl

/-! ## The invariant -/

/-- A session inside a transaction that began in `s₀`, after writes of this device: they have had
the effect of one batch, and the log has noted what they touch. -/
structure Accumulated (s₀ : Session) (writes : List Write) (s : Session) : Prop where
  isOpen : s.isOpen = true
  active : s.inTransaction = true
  profile : s.profile = s₀.profile
  published : s.published = s₀.published
  notifier : s.notifier = s₀.notifier
  failing : s.backend.failing = s₀.backend.failing
  idle : s₀.backend.failing = true → s₀.backend.values.Idle writes
  log : s.transaction.log = (Write.touched writes).map fun key => (key, s₀.backend.get? key)
  values : s.backend.values = s₀.backend.values.valuesAfter writes
  owned : s.backend.owned
    = s₀.backend.owned.writeAll (fun value => (value, s₀.deviceOf .here)) writes
  untouched : ∀ key, key ∉ Write.touched writes → s.backend.get? key = s₀.backend.get? key

theorem accumulated_start {s₀ s₁ : Session} (h : s₀.startTransaction = (.ok (), s₁)) :
    s₀.Accumulated [] s₁ := by
  obtain ⟨hopen, -, rfl⟩ := startTransaction_eq_ok h
  exact ⟨hopen, rfl, rfl, rfl, rfl, rfl, fun _ key hkey => absurd hkey List.not_mem_nil, rfl, rfl,
    rfl, fun _ _ => rfl⟩

namespace Accumulated

variable {s₀ s s' : Session} {writes batch : List Write}

theorem deviceOf_here (h : s₀.Accumulated writes s) : s.deviceOf .here = s₀.deviceOf .here := by
  rw [deviceOf, deviceOf, h.profile]

/-- **A batch of this device adds its writes.** -/
theorem wrote (h : s₀.Accumulated writes s) (hwrote : s.Wrote .here batch s') :
    s₀.Accumulated (writes ++ batch) s' where
  isOpen := hwrote.isOpen.trans h.isOpen
  active := hwrote.inTransaction.trans h.active
  profile := hwrote.profile.trans h.profile
  published := hwrote.published.trans h.published
  notifier := hwrote.notifier.trans h.notifier
  failing := hwrote.failing.trans h.failing
  idle hfail := by
    refine (h.idle hfail).append ?_
    rw [← h.values]
    exact hwrote.idle (h.failing.trans hfail)
  log := by
    rw [hwrote.log_here h.active, h.log, UndoLog.extend_map h.untouched, Write.touched_append]
  values := by rw [hwrote.values, h.values, Contents.valuesAfter_append]
  owned := by rw [hwrote.owned, h.owned, h.deviceOf_here, Contents.writeAll_append]
  untouched key hkey := by
    rw [Write.touched_append, List.mem_append, not_or] at hkey
    have hbatch : key ∉ Write.touched batch := by
      intro hmem
      refine hkey.2 (List.mem_filter.mpr ⟨hmem, ?_⟩)
      simpa using hkey.1
    rw [hwrote.get?_of_not_mem hbatch, h.untouched key hkey.1]

theorem writes_here {s₁ : Session} {trace : Trace} (h : s₀.Accumulated [] s₁)
    (hwrites : s₁.Writes trace s) (hlocal : ∀ b ∈ trace, b.1 = .here) :
    s₀.Accumulated (trace.flatMap (·.2)) s := by
  induction hwrites with
  | nil => exact h
  | @snoc t u trace now op answer origin batch _ hbatch hok ih =>
      -- nothing is told of a batch of this device, so what was written is all that happened
      have hinv := ih fun b hb => hlocal b (List.mem_append_left _ hb)
      obtain rfl : origin = .here := hlocal (origin, batch) (by simp)
      have hmutate := mutate_of_perform_of_active hinv.active hbatch hok
      obtain ⟨-, t', hwrote, rfl⟩ := mutate_eq_ok hmutate
      rw [announce_of_active (hwrote.inTransaction.trans hinv.active), List.flatMap_append,
        List.flatMap_singleton]
      exact hinv.wrote hwrote

end Accumulated

/-! ## The notice of a commit -/

/-- In a shared store the net notice needs no owners. -/
theorem netNotice_shared {s : Session} (h : s.space = .shared) (log : UndoLog) :
    s.netNotice log = log.netChanges s.backend.values s.profile.device := by
  -- whoever owns a key of a shared store, users see the key as it is
  have hid : s.ownedEntry log = id := by
    funext e
    rw [ownedEntry]
    split
    · rw [h]
      rfl
    · rfl
  rw [netNotice, hid, Notice.map, List.map_id, List.map_id, List.map_id]
  rfl

/-- The net notice of a log that has noted what keys held at the start. -/
theorem netChanges_map (b : Backend) (keys : List Blob) (now : Contents Blob) (device : String) :
    UndoLog.netChanges (keys.map fun key => (key, b.get? key)) now device
      = .ofTouched keys b.values now device := by
  rw [UndoLog.netChanges, List.map_map]
  rfl

/-- A commit ends the transaction and announces its net notice. -/
theorem commit_eq {s : Session} (hopen : s.isOpen = true) (hactive : s.inTransaction = true) :
    s.commit = (.ok (),
      { s with transaction := { s.transaction with phase := .committed, log := [] } }.announce .here
        (s.netNotice s.transaction.log)) := by
  rw [inTransaction] at hactive
  rw [commit, whenOpen_of_isOpen hopen]
  simp only [Transaction.undoLog, Transaction.commit, Transaction.finish, hactive, if_true]

/-- A commit that succeeds has ended a transaction and announced its net notice. -/
theorem commit_eq_ok {s s' : Session} (h : s.commit = (.ok (), s')) :
    s.inTransaction = true
      ∧ s' = { s with
          transaction := { s.transaction with phase := .committed, log := [] } }.announce .here
            (s.netNotice s.transaction.log) := by
  obtain ⟨hopen, hop⟩ := whenOpen_eq_ok h
  by_cases hactive : s.inTransaction = true
  · rw [commit_eq hopen hactive] at h
    exact ⟨hactive, (Prod.mk.inj h).2.symm⟩
  · rw [inTransaction] at hactive
    simp only [Transaction.undoLog, hactive] at hop
    exact absurd (Prod.mk.inj hop).1 (by simp)

/-- **A transaction of this device is one batch.** Its batches, one after the other, tell nobody
anything. Its commit publishes what one batch of all their writes publishes on the session at the
start, with the same notice, and leaves the same values of the same devices. -/
theorem commit_announces_one_batch {s₀ s₁ s₂ : Session} {trace : Trace}
    (hspace : s₀.space = .shared) (hstart : s₀.startTransaction = (.ok (), s₁))
    (hwrites : s₁.Writes trace s₂) (hlocal : ∀ b ∈ trace, b.1 = .here) (now : Int) :
    s₂.published = s₀.published ∧ s₂.notifier = s₀.notifier
      ∧ ∃ s₃ s' notice, s₂.commit = (.ok (), s₃)
        ∧ s₀.mutate now (trace.flatMap (·.2)) .here = (.ok (), s')
        ∧ notice.isClear = false ∧ notice.device = s₀.profile.device
        ∧ s₃.published
          = s₀.published ++ (if notice.isEmpty = true then [] else [(.here, notice)])
        ∧ s'.published = s₃.published ∧ s'.notifier = s₃.notifier
        ∧ s'.backend.owned = s₃.backend.owned := by
  have hinv := (accumulated_start hstart).writes_here hwrites hlocal
  obtain ⟨hopen, hidle, -⟩ := startTransaction_eq_ok hstart
  obtain ⟨s', hbatch⟩ := exists_mutate_eq_ok hopen hinv.idle now .here
  obtain ⟨-, t, hwrote, rfl⟩ := mutate_eq_ok hbatch
  have hspace₂ : s₂.space = .shared := by
    rw [space, hinv.profile]
    exact hspace
  -- the log and the backend of now give what the one batch finds before it is written
  have hnotice : s₂.netNotice s₂.transaction.log = s₀.noticeOf (trace.flatMap (·.2)) .here :=
    calc s₂.netNotice s₂.transaction.log
        = s₂.transaction.log.netChanges s₂.backend.values s₂.profile.device :=
          netNotice_shared hspace₂ _
      _ = .ofTouched (Write.touched (trace.flatMap (·.2))) s₀.backend.values
            (s₀.backend.values.valuesAfter (trace.flatMap (·.2))) s₀.profile.device := by
          rw [hinv.log, netChanges_map, hinv.values, hinv.profile]
      _ = s₀.noticeOf (trace.flatMap (·.2)) .here := (noticeOf_shared hspace _ .here).symm
  have hcommit := commit_eq hinv.isOpen hinv.active
  rw [hnotice] at hcommit
  -- neither session is inside a transaction when it announces
  obtain ⟨htold, hnotified⟩ := announce_of_idle (hwrote.inTransaction.trans hidle) .here
    (s₀.noticeOf (trace.flatMap (·.2)) .here)
  obtain ⟨htold₂, hnotified₂⟩ := announce_of_idle
    (s := { s₂ with transaction := { s₂.transaction with phase := .committed, log := [] } }) rfl
    .here (s₀.noticeOf (trace.flatMap (·.2)) .here)
  refine ⟨hinv.published, hinv.notifier, _, _, s₀.noticeOf (trace.flatMap (·.2)) .here, hcommit,
    hbatch, rfl, rfl, ?_, ?_, ?_, ?_⟩
  · rw [htold₂, hinv.published]
  · rw [htold, htold₂, hinv.published, hwrote.published]
  · rw [hnotified, hnotified₂, hinv.notifier, hwrote.notifier]
  · rw [announce_backend, announce_backend]
    exact hwrote.owned.trans hinv.owned.symm

/-- A key is written over and removed, the store is emptied, and the key comes back. The commit
tells of an update, as the one batch does. -/
theorem commit_announces_one_batch_with_clear :
    let t₁ := (stocked.startTransaction.2.perform 2 (.putBatch [⟨[1], [10]⟩, ⟨[2], [20]⟩])).2
    let t₂ := (t₁.perform 3 (.delete [1])).2
    let t₃ := (t₂.perform 4 .clear).2
    let s₂ := (t₃.perform 5 (.put [1] [30])).2
    let told : List (Origin × Notice) :=
      [(.here, { updates := [⟨[1], [30]⟩], device := "self" })]
    ∃ s₃ s', s₂.commit = (.ok (), s₃)
      ∧ stocked.mutate 9 [.put [1] [10], .put [2] [20], .remove [1], .remove [2], .put [1] [30]]
          .here = (.ok (), s')
      ∧ s₃.published = told ∧ s'.published = told := by
  intro t₁ t₂ t₃ s₂ told
  have hspace : stocked.space = .shared := rfl
  have hstart : stocked.startTransaction = (.ok (), stocked.startTransaction.2) := rfl
  have hwrites : stocked.startTransaction.2.Writes
      ([] ++ [(.here, [.put [1] [10], .put [2] [20]])] ++ [(.here, [.remove [1]])]
        ++ [(.here, [.remove [2]])] ++ [(.here, [.put [1] [30]])]) s₂ :=
    ((((Writes.nil _).next 2 (by decide +kernel) (by decide +kernel)).next 3 (by decide +kernel)
      (by decide +kernel)).next 4 (by decide +kernel) (by decide +kernel)).next 5
      (by decide +kernel) (by decide +kernel)
  obtain ⟨-, -, s₃, s', -, hcommit, hbatch, -, -, -, hsame, -⟩ :=
    commit_announces_one_batch hspace hstart hwrites (by decide) 9
  have htold : s₂.commit.2.published = told := by decide +kernel
  rw [hcommit] at htold
  exact ⟨s₃, s', hcommit, hbatch, htold, hsame.trans htold⟩

end Session

end PeerStore
