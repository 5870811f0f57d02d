import PeerStore.Proofs.Backend.Scan
import PeerStore.Proofs.Replica
import PeerStore.Proofs.Store.Aside
import PeerStore.Proofs.Store.Commit

/-!
# What observers know

Whoever starts with the contents of a shared store and applies what the store publishes knows the
*announced* contents: those without what an active transaction has done (`Session.announced`). A
single event either leaves them as they are and publishes nothing, or publishes one notice that is
consistent with them and leads to the new ones (`Session.Follows`, `follows_handle`). So it is for
every run in which batches of other devices arrive outside transactions only, and at every moment
outside a transaction the announced contents are the contents (**`replica_follows_run`**).
-/

set_option autoImplicit false

namespace PeerStore

/-- Whether the event is the arrival of a batch of another device. -/
def Event.isRemote : Event → Bool
  | .perform _ (.applyRemote ..) => true
  | _ => false

namespace Session

/-! ## Announced contents -/

/-- The contents as observers know them: without what an active transaction has done. -/
def announced (s : Session) : Contents Blob :=
  if s.inTransaction then fun key => (s.transaction.log.undo s.backend.contents key).map (·.value)
  else s.backend.values

theorem announced_of_idle {s : Session} (h : s.inTransaction = false) :
    s.announced = s.backend.values := by
  rw [announced, h, if_neg Bool.false_ne_true]

theorem announced_of_active {s : Session} (h : s.inTransaction = true) :
    s.announced
      = fun key => (s.transaction.log.undo s.backend.contents key).map (·.value) := by
  rw [announced, if_pos h]

/-- A key that the transaction has not touched is known as it is. -/
theorem announced_of_not_notes {s : Session} {key : Blob}
    (h : s.transaction.log.notes key = false) : s.announced key = s.backend.values key := by
  by_cases hactive : s.inTransaction = true
  · rw [announced_of_active hactive, Backend.values_eq]
    exact congrArg (Option.map (·.value)) (UndoLog.undo_of_not_notes h _)
  · rw [announced_of_idle (Bool.eq_false_iff.mpr hactive)]

/-- A key that the transaction has touched is known as the log has noted it. -/
theorem announced_of_mem {s : Session} (hactive : s.inTransaction = true)
    (hsound : s.transaction.log.Sound) {key : Blob} {prior : Option Record}
    (h : (key, prior) ∈ s.transaction.log) : s.announced key = prior.map (·.value) := by
  rw [announced_of_active hactive]
  simp only [UndoLog.undo, hsound.prior?_eq_some h, Option.map_map]
  rfl

/-! ## Publishing -/

/-- Outside a transaction every notice is published that is not empty. -/
theorem publish_of_idle {s : Session} (h : s.inTransaction = false) (origin : Origin)
    (n : Notice) :
    (s.publish origin n).2 = if n.isEmpty = true then s else
      { s with
        notifier := (s.notifier.notify origin n).2
        published := s.published ++ [(origin, n)] } := by
  rw [inTransaction] at h
  rw [publish, h, Bool.false_and, Bool.or_false]
  split <;> rfl

/-- To announce a notice is to publish it; a sync that then starts is beside the entries. -/
theorem announce_aside (s : Session) (origin : Origin) (n : Notice) :
    (s.publish origin n).2.Aside (s.announce origin n) := by
  unfold announce
  split
  · rename_i t heq
    rw [heq]
    split
    · rw [pushOnline_rest]
      rfl
    · rfl
  · rename_i t heq
    rw [heq]
    rfl

/-- What observers of a session know after they were told notices, on the way to another session:
each notice was consistent with what they knew, and what they know is what is announced. -/
structure Follows (s : Session) (told : List (Origin × Notice)) (s' : Session) : Prop where
  published : s'.published = s.published ++ told
  consistent : s.announced.Consistent told
  knows : s'.announced = s.announced.follow told

namespace Follows

variable {s t u : Session} {told more : List (Origin × Notice)}

theorem silent (hpublished : t.published = s.published) (hannounced : t.announced = s.announced) :
    s.Follows [] t :=
  ⟨by rw [hpublished, List.append_nil], trivial, hannounced⟩

theorem refl (s : Session) : s.Follows [] s := silent rfl rfl

theorem trans (h : s.Follows told t) (h' : t.Follows more u) : s.Follows (told ++ more) u where
  published := by rw [h'.published, h.published, List.append_assoc]
  consistent := Contents.consistent_append h.consistent (h.knows ▸ h'.consistent)
  knows := by rw [h'.knows, h.knows, Contents.follow_append]

/-- What is beside the entries is beside what observers know. -/
theorem of_aside (h : s.Aside t) : s.Follows [] t := by
  rw [h]
  exact silent rfl rfl

/-- A notice that is published outside a transaction, and that leads from what was announced to
what is. -/
theorem of_publish {origin : Origin} {n : Notice} (hidle : t.inTransaction = false)
    (hpublished : t.published = s.published) (hfits : n.Fits s.announced)
    (happly : n.applyTo s.announced = t.backend.values) (haside : (t.publish origin n).2.Aside u) :
    ∃ told, s.Follows told u := by
  suffices hpublish : ∃ told, s.Follows told (t.publish origin n).2 by
    obtain ⟨told, h⟩ := hpublish
    exact ⟨_, h.trans (of_aside haside)⟩
  rw [publish_of_idle hidle]
  by_cases hempty : n.isEmpty = true
  · rw [if_pos hempty]
    rw [Notice.applyTo_of_isEmpty hempty] at happly
    exact ⟨[], silent hpublished ((announced_of_idle hidle).trans happly.symm)⟩
  · rw [if_neg hempty]
    refine ⟨[(origin, n)], congrArg (· ++ [(origin, n)]) hpublished, ⟨hfits, trivial⟩, ?_⟩
    exact (announced_of_idle hidle).trans happly.symm

end Follows

/-- A session that observers can follow: it is shared, and the log of its transaction, if one is
active, is sound. -/
structure Followable (s : Session) : Prop where
  shared : s.space = .shared
  sound : s.inTransaction = true → s.transaction.log.Sound

theorem Followable.aside {s s' : Session} (h : s.Followable) (haside : s.Aside s') :
    s'.Followable := by
  rw [haside]
  exact { h with }

/-- Nobody is told of a call that failed. -/
theorem Followable.failed {s s' : Session} {e : Status} (h : s.Followable)
    (hfailed : s.Failed e s') : s.Follows [] s' ∧ s'.Followable := by
  rw [hfailed.rest]
  exact ⟨.silent rfl rfl, { h with }⟩

namespace Followable

variable {s t s' : Session}

/-! ## Batches -/

/-- A session that publishes outside a transaction can be followed on. -/
theorem publish (h : s.Followable) (hidle : s.inTransaction = false) {origin : Origin} {n : Notice}
    (haside : (s.publish origin n).2.Aside t) : t.Followable := by
  refine aside ?_ haside
  rw [publish_of_idle hidle]
  split
  · exact h
  · exact { h with }

/-- A batch that was written keeps a session that can be followed. -/
theorem wrote_idle (h : s.Followable) (hidle : s.inTransaction = false) {origin : Origin}
    {batch : List Write} (hwrote : s.Wrote origin batch t) : t.Followable where
  shared := by
    rw [space, hwrote.profile]
    exact h.shared
  sound hactive := by
    rw [hwrote.inTransaction, hidle] at hactive
    exact absurd hactive Bool.false_ne_true

/-- A batch outside a transaction is told when its notice is published. -/
theorem publish_wrote (h : s.Followable) (hidle : s.inTransaction = false) {origin : Origin}
    {batch : List Write} (hwrote : s.Wrote origin batch t)
    (haside : (t.publish origin (s.noticeOf batch origin)).2.Aside s') :
    (∃ told, s.Follows told s') ∧ s'.Followable := by
  have hidle' : t.inTransaction = false := hwrote.inTransaction.trans hidle
  have htells : (s.noticeOf batch origin).Tells (Write.touched batch) s.announced
      t.backend.values := by
    rw [noticeOf_shared h.shared, announced_of_idle hidle, hwrote.values]
    exact Notice.tells_ofTouched (Write.nodup_touched batch)
  refine ⟨Follows.of_publish hidle' hwrote.published htells.fits ?_ haside,
    (h.wrote_idle hidle hwrote).publish hidle' haside⟩
  refine htells.applyTo fun key hkey => ?_
  rw [announced_of_idle hidle, hwrote.values]
  exact Contents.writeAll_of_not_touched _ hkey

/-- Nobody is told of a batch of this device inside a transaction. -/
theorem wrote_active (h : s.Followable) (hactive : s.inTransaction = true) {batch : List Write}
    (hwrote : s.Wrote .here batch t) : s.Follows [] t ∧ t.Followable := by
  have hactive' : t.inTransaction = true := hwrote.inTransaction.trans hactive
  refine ⟨.silent hwrote.published ?_, ?_, fun _ => ?_⟩
  · rw [announced_of_active hactive', announced_of_active hactive, hwrote.undo_here hactive]
  · show t.profile.space = .shared
    rw [hwrote.profile]
    exact h.shared
  · rw [hwrote.log_here hactive]
    exact (h.sound hactive).extend (Write.nodup_touched batch)

/-- A batch outside a transaction is told, or it fails and nobody is told. -/
theorem mutate_idle (h : s.Followable) (hidle : s.inTransaction = false) (now : Int)
    (batch : List Write) (origin : Origin) :
    (∃ told, s.Follows told (s.mutate now batch origin).2)
      ∧ (s.mutate now batch origin).2.Followable := by
  cases hmutate : s.mutate now batch origin with
  | mk result t =>
      cases result with
      | error e => exact (h.failed (mutate_eq_error hmutate)).imp_left fun hs => ⟨_, hs⟩
      | ok _ =>
          obtain ⟨-, u, hwrote, rfl⟩ := mutate_eq_ok hmutate
          exact h.publish_wrote hidle hwrote (u.announce_aside _ _)

/-! ## Emptying a store, and removing the data of a device -/

/-- But for its mark, the notice of a shared store that was emptied is that of all its keys, none of
which is left. -/
theorem tells_clearNotice (h : s.Followable) :
    Notice.Tells { s.clearNotice s.backend.snapshot with isClear := false }
      (s.backend.snapshot.map (·.key)) s.backend.values fun _ => none := by
  have hdeletes : s.backend.snapshot.map s.userEntry
      = (s.backend.snapshot.map (·.key)).filterMap fun key =>
          (s.backend.values key).map (Entry.mk key) := by
    rw [List.filterMap_map, ← List.filterMap_eq_map]
    refine List.filterMap_congr fun r hr => ?_
    show some (s.userEntry r) = (s.backend.values r.key).map (Entry.mk r.key)
    rw [Backend.values, Backend.mem_snapshot_iff.mp hr, userEntry, h.shared]
    rfl
  have hnotice : ({ s.clearNotice s.backend.snapshot with isClear := false } : Notice)
      = .ofTouched (s.backend.snapshot.map (·.key)) s.backend.values (fun _ => none)
          s.profile.device := by
    rw [Notice.ofTouched_none, ← hdeletes]
    rfl
  rw [hnotice]
  exact Notice.tells_ofTouched s.backend.nodup_snapshot

/-- The notice of a shared store that was emptied leaves nothing of what the store held. -/
theorem applyTo_clearNotice (h : s.Followable) :
    (s.clearNotice s.backend.snapshot).applyTo s.backend.values = fun _ => none := by
  refine h.tells_clearNotice.applyTo fun key hkey => ?_
  -- a key with a value has a record
  cases hget : s.backend.get? key with
  | none =>
      rw [Backend.values, hget]
      rfl
  | some r =>
      obtain ⟨stored, -, rfl⟩ := Option.map_eq_some_iff.mp hget
      have hmem : Record.ofStored key stored ∈ s.backend.snapshot :=
        Backend.mem_snapshot_iff.mpr hget
      exact absurd (List.mem_map.mpr ⟨_, hmem, rfl⟩) hkey

theorem fits_clearNotice (h : s.Followable) :
    (s.clearNotice s.backend.snapshot).Fits s.backend.values :=
  { h.tells_clearNotice.fits with isClear := fun _ => h.applyTo_clearNotice }

/-- A store that is emptied outside a transaction tells of everything that it held. -/
theorem clear_idle (h : s.Followable) (hidle : s.inTransaction = false) (now : Int) :
    (∃ told, s.Follows told (s.clear now).2) ∧ (s.clear now).2.Followable := by
  cases hclear : s.clear now with
  | mk result t =>
      cases result with
      | error e => exact (h.failed (clear_eq_error hclear)).imp_left fun hs => ⟨_, hs⟩
      | ok _ =>
          obtain ⟨-, ⟨hactive, -⟩ | ⟨-, rfl⟩⟩ := clear_eq_ok hclear
          · exact absurd (hidle.symm.trans hactive) Bool.false_ne_true
          · let emptied : Session := { s with backend := { s.backend with toTables := {} } }
            have haside := emptied.announce_aside .here (s.clearNotice s.backend.snapshot)
            refine ⟨Follows.of_publish (t := emptied) hidle rfl ?_ ?_ haside, ?_⟩
            · rw [announced_of_idle hidle]
              exact h.fits_clearNotice
            · rw [announced_of_idle hidle]
              exact h.applyTo_clearNotice
            · have hemptied : emptied.Followable := { h with }
              exact hemptied.publish hidle haside

/-- The removal of the data of a device outside a transaction is told as a batch is. -/
theorem removeDeviceData_idle (h : s.Followable) (hidle : s.inTransaction = false) (now : Int)
    (network : String) :
    (∃ told, s.Follows told (s.removeDeviceData now network).2)
      ∧ (s.removeDeviceData now network).2.Followable := by
  cases hremove : s.removeDeviceData now network with
  | mk result t =>
      cases result with
      | error e => exact (h.failed (removeDeviceData_eq_error hremove)).imp_left fun hs => ⟨_, hs⟩
      | ok _ =>
          obtain ⟨device, notice, u, -, -, -, happly, rfl⟩ := removeDeviceData_eq_ok hremove
          obtain ⟨rfl, hwrote⟩ := applyBatch_eq_ok happly
          exact h.publish_wrote hidle hwrote (.refl _)

/-! ## Transactions -/

/-- A transaction starts in silence. -/
theorem startTransaction (h : s.Followable) :
    s.Follows [] s.startTransaction.2 ∧ s.startTransaction.2.Followable := by
  cases hstart : s.startTransaction with
  | mk result t =>
      cases result with
      | error e =>
          obtain rfl := startTransaction_eq_error hstart
          exact ⟨.refl _, h⟩
      | ok _ =>
          obtain ⟨-, hidle, rfl⟩ := startTransaction_eq_ok hstart
          refine ⟨.silent rfl ?_, h.shared, fun _ => UndoLog.sound_nil⟩
          rw [announced_of_idle hidle]
          funext key
          exact (s.backend.values_eq key).symm

/-- The net notice of a transaction tells what became of the keys that it has touched. -/
theorem tells_netNotice (h : s.Followable) (hactive : s.inTransaction = true) :
    (s.netNotice s.transaction.log).Tells (s.transaction.log.map (·.1)) s.announced
      s.backend.values := by
  have hnotice : s.netNotice s.transaction.log
      = .ofTouched (s.transaction.log.map (·.1)) s.announced s.backend.values
          s.profile.device := by
    rw [netNotice_shared h.shared, UndoLog.netChanges, Notice.ofTouched, List.map_map]
    congr 1
    refine List.map_congr_left fun entry hmem => ?_
    obtain ⟨key, prior⟩ := entry
    show Change.mk key (prior.map (·.value)) _ = Change.mk key (s.announced key) _
    rw [announced_of_mem hactive (h.sound hactive) hmem]
  rw [hnotice]
  exact Notice.tells_ofTouched (h.sound hactive).nodup

/-- A commit tells what its transaction has done. -/
theorem commit (h : s.Followable) :
    (∃ told, s.Follows told s.commit.2) ∧ s.commit.2.Followable := by
  cases hcommit : s.commit with
  | mk result t =>
      cases result with
      | error e =>
          obtain rfl := commit_eq_error hcommit
          exact ⟨⟨_, .refl _⟩, h⟩
      | ok _ =>
          obtain ⟨hactive, rfl⟩ := commit_eq_ok hcommit
          have htells := h.tells_netNotice hactive
          let ended : Session :=
            { s with transaction := { s.transaction with phase := .committed, log := [] } }
          have haside := ended.announce_aside .here (s.netNotice s.transaction.log)
          have hended : ended.Followable := ⟨h.shared, fun _ => UndoLog.sound_nil⟩
          refine ⟨Follows.of_publish (t := ended) rfl rfl htells.fits ?_ haside,
            hended.publish rfl haside⟩
          refine htells.applyTo fun key hkey => (announced_of_not_notes ?_).symm
          rw [Bool.eq_false_iff, Ne, UndoLog.notes_iff]
          exact hkey

/-- What is left after a transaction was undone is what observers knew all the time. -/
theorem undone (h : s.Followable) (hactive : s.inTransaction = true) :
    s.Follows [] s.undone ∧ s.undone.Followable := by
  refine ⟨.silent rfl ?_, h.shared, fun _ => UndoLog.sound_nil⟩
  rw [announced_of_idle (s := s.undone) rfl, announced_of_active hactive]
  funext key
  rw [Backend.values_eq, contents_undone (h.sound hactive)]

/-- Nobody is told of a rollback. -/
theorem rollback (h : s.Followable) : s.Follows [] s.rollback.2 ∧ s.rollback.2.Followable := by
  cases hrollback : s.rollback with
  | mk result t =>
      cases result with
      | error e =>
          obtain rfl := rollback_eq_error hrollback
          exact ⟨.refl _, h⟩
      | ok _ =>
          obtain ⟨hactive, rfl⟩ := undone_of_rollback hrollback
          exact h.undone hactive

/-! ## Every event -/

/-- Nobody is told of what this device writes inside a transaction, nor of its failures. -/
theorem perform_active (h : s.Followable) (hactive : s.inTransaction = true) {op : Operation}
    (hlocal : op.writesHere = true) (now : Int) :
    (∃ told, s.Follows told (s.perform now op).2) ∧ (s.perform now op).2.Followable := by
  rcases perform_here_cases hactive hlocal now with ⟨batch, hwrote⟩ | ⟨time, hfailed⟩
  · exact (h.wrote_active hactive hwrote).imp_left fun hs => ⟨_, hs⟩
  · rw [hfailed]
    exact ⟨⟨[], .silent rfl rfl⟩, { h with }⟩

/-- Outside a transaction a call that writes is refused, or it is told as its batch. -/
theorem perform_idle (h : s.Followable) (hidle : s.inTransaction = false) {op : Operation}
    {origin : Origin} {batch : List Write} (hop : op.batch? s.space = some (origin, batch))
    (now : Int) :
    (∃ told, s.Follows told (s.perform now op).2) ∧ (s.perform now op).2.Followable := by
  rcases perform_batch? hop now with ⟨e, hrefused⟩ | hbatch
  · rw [hrefused]
    exact ⟨⟨_, .refl s⟩, h⟩
  · rw [hbatch, answer_snd]
    exact h.mutate_idle hidle now batch origin

/-- **Whatever is asked of a store, its observers can follow**, if it is not to apply a batch of
another device inside a transaction. -/
theorem perform (h : s.Followable) (now : Int) {op : Operation}
    (hremote : (Event.perform now op).isRemote = true → s.inTransaction = false) :
    (∃ told, s.Follows told (s.perform now op).2) ∧ (s.perform now op).2.Followable := by
  cases op with
  | put | putBatch | delete | deleteBatch =>
      by_cases hactive : s.inTransaction = true
      · exact h.perform_active hactive rfl now
      · exact h.perform_idle (Bool.eq_false_iff.mpr hactive) rfl now
  | applyRemote => exact h.perform_idle (hremote rfl) rfl now
  | clear =>
      by_cases hactive : s.inTransaction = true
      · exact h.perform_active hactive rfl now
      · rw [Session.perform, answer_snd]
        exact h.clear_idle (Bool.eq_false_iff.mpr hactive) now
  | removeDeviceData network =>
      by_cases hactive : s.inTransaction = true
      · exact h.perform_active hactive rfl now
      · rw [Session.perform, answer_snd]
        exact h.removeDeviceData_idle (Bool.eq_false_iff.mpr hactive) now network
  | startTransaction =>
      rw [Session.perform, answer_snd]
      exact h.startTransaction.imp_left fun hs => ⟨_, hs⟩
  | commit =>
      rw [Session.perform, answer_snd]
      exact h.commit
  | rollback =>
      rw [Session.perform, answer_snd]
      exact h.rollback.imp_left fun hs => ⟨_, hs⟩
  -- the other operations are beside the entries
  | _ => exact ⟨⟨_, .of_aside (perform_aside rfl now)⟩, h.aside (perform_aside rfl now)⟩

/-- **What one event does to observers**: it leaves what they know, or tells them what changed. -/
theorem handle (h : s.Followable) {e : Event}
    (hremote : e.isRemote = true → s.inTransaction = false) :
    (∃ told, s.Follows told (s.handle e)) ∧ (s.handle e).Followable := by
  cases e with
  | perform now op => exact h.perform now hremote
  | failWrites on => exact ⟨⟨[], .silent rfl rfl⟩, { h with }⟩
  | register network device => exact ⟨⟨[], .silent rfl rfl⟩, { h with }⟩
  | unregister network => exact ⟨⟨[], .silent rfl rfl⟩, { h with }⟩

end Followable

/-! ## Runs -/

/-- Whether batches of other devices arrive outside transactions only, in a run from a session. -/
def RemoteWhenIdle (s : Session) : List Event → Prop
  | [] => True
  | e :: events =>
      (e.isRemote = true → s.inTransaction = false) ∧ (s.handle e).RemoteWhenIdle events

instance RemoteWhenIdle.decidable (s : Session) :
    (events : List Event) → Decidable (s.RemoteWhenIdle events)
  | [] => .isTrue trivial
  | e :: events =>
      have := RemoteWhenIdle.decidable (s.handle e) events
      inferInstanceAs (Decidable (_ ∧ _))

theorem Followable.run {s : Session} (h : s.Followable) {events : List Event}
    (hremote : s.RemoteWhenIdle events) :
    (∃ told, s.Follows told (s.run events)) ∧ (s.run events).Followable := by
  induction events generalizing s with
  | nil => exact ⟨⟨_, .refl s⟩, h⟩
  | cons e events ih =>
      obtain ⟨⟨told, htold⟩, hnext⟩ := h.handle hremote.1
      obtain ⟨⟨more, hmore⟩, hend⟩ := ih hnext hremote.2
      exact ⟨⟨told ++ more, htold.trans hmore⟩, hend⟩

/-- A store that is closed while its backend accepts writes has what its observers know. -/
theorem Followable.close {s : Session} (h : s.Followable) (hopen : s.isOpen = true)
    (hfail : s.backend.failing = false) :
    s.Follows [] s.close ∧ s.close.inTransaction = false := by
  rw [close_eq hopen]
  by_cases hactive : s.inTransaction = true
  · rw [abandon_eq hactive hfail]
    exact ⟨.silent rfl (h.undone hactive).1.knows, rfl⟩
  · have habandon : s.abandon = s := by
      rw [inTransaction] at hactive
      simp only [abandon, Transaction.undoLog, hactive]
      rfl
    rw [habandon]
    exact ⟨.silent rfl rfl, Bool.eq_false_iff.mpr hactive⟩

/-- **A replica that is told everything follows the store.** It starts with the contents of a
shared store outside a transaction and applies each notice that is published in a run, in order. If
batches of other devices arrive outside transactions only, each notice is consistent with what the
replica holds when it is applied, and the replica holds what the store holds at every moment
outside a transaction, and also after the store was closed while its backend accepted writes. -/
theorem replica_follows_run {s₀ s : Session} {events : List Event} (hspace : s₀.space = .shared)
    (hidle : s₀.inTransaction = false) (hremote : s₀.RemoteWhenIdle events)
    (hrun : s₀.run events = s) :
    ∃ told, s.published = s₀.published ++ told
      ∧ s₀.backend.values.Consistent told
      ∧ (s.inTransaction = false → s.backend.values = s₀.backend.values.follow told)
      ∧ (s.isOpen = true → s.backend.failing = false →
          s.close.published = s.published
          ∧ s.close.backend.values = s₀.backend.values.follow told) := by
  have hstart : s₀.Followable := by
    refine ⟨hspace, fun hactive => ?_⟩
    rw [hidle] at hactive
    exact absurd hactive Bool.false_ne_true
  obtain ⟨⟨told, htold⟩, hend⟩ := hrun ▸ hstart.run hremote
  have hconsistent := htold.consistent
  have hknows := htold.knows
  rw [announced_of_idle hidle] at hconsistent hknows
  refine ⟨told, htold.published, hconsistent, fun hsettled => ?_, fun hopen hfail => ?_⟩
  · rw [← announced_of_idle hsettled, hknows]
  · obtain ⟨hclose, hclosed⟩ := hend.close hopen hfail
    have hpublished := hclose.published
    rw [List.append_nil] at hpublished
    refine ⟨hpublished, ?_⟩
    rw [← announced_of_idle hclosed, ← hknows]
    exact hclose.knows

/-- A transaction that empties the store and is committed, with a failure in between; a batch of
another device; a transaction that is rolled back; the data of the other device removed; and the
store emptied at last. The replica is told five times and ends empty, as the store does. -/
theorem replica_follows_run_of_all_kinds :
    let events : List Event := [.register "net" "peer", .perform 2 .startTransaction,
      .perform 3 (.put [1] [10]), .failWrites true, .perform 4 (.delete [1]), .failWrites false,
      .perform 5 .clear, .perform 6 (.put [2] [20]), .perform 7 .commit,
      .perform 8 (.applyRemote "peer" [⟨[3], [30]⟩, ⟨[2], [40]⟩] [[5]]),
      .perform 9 .startTransaction, .perform 10 (.put [2] [50]), .perform 11 .rollback,
      .perform 12 (.removeDeviceData "net"), .perform 13 (.put [4] [60]), .perform 14 .clear]
    ∃ told, (stocked.run events).published = told ∧ told.length = 5
      ∧ stocked.backend.values.Consistent told
      ∧ (stocked.run events).backend.values = stocked.backend.values.follow told := by
  intro events
  obtain ⟨told, hpublished, hconsistent, hsettled, -⟩ :=
    @replica_follows_run stocked (stocked.run events) events rfl (by decide) (by decide +kernel) rfl
  have htold : (stocked.run events).published = told := hpublished
  refine ⟨told, htold, ?_, hconsistent, hsettled (by decide +kernel)⟩
  rw [← htold]
  decide +kernel

end Session

end PeerStore
