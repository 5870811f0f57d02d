import PeerStore.Proofs.Store.Turn

/-!
# What the records of a store have in common

Batches write records, and a rollback brings back those from before. A property is common to all
records that a store has and to all that a rollback would put back (`Session.AllRecords`) as long as
every batch that is written puts records with the property only (`Session.PutsOnly`): one event
keeps it (**`AllRecords.turn`**), a run keeps it (`AllRecords.run`), and so does closing the store
(`AllRecords.close`).
-/

set_option autoImplicit false

namespace PeerStore

/-! ## Contents -/

namespace Contents

/-- Whether each record has a property. -/
def All (P : Blob → Stored → Prop) (c : Contents Stored) : Prop := ∀ key r, c key = some r → P key r

variable {P : Blob → Stored → Prop} {c d : Contents Stored}

theorem all_none : All P fun _ => none := fun _ _ h => absurd h (by simp)

/-- A batch puts its records over those that are there. -/
theorem All.writeAll (h : c.All P) {batch : List Write} {time : Int} {device : String}
    (hputs : ∀ w ∈ batch, ∀ value, w.value = some value → P w.key ⟨value, time, device⟩) :
    (c.writeAll (fun value => ⟨value, time, device⟩) batch).All P := by
  induction batch generalizing c with
  | nil => exact h
  | cons w ws ih =>
      refine ih ?_ fun w' hw' => hputs w' (List.mem_cons_of_mem _ hw')
      intro key r hr
      by_cases hkey : key = w.key
      · rw [hkey, write_self] at hr
        obtain ⟨value, hvalue, rfl⟩ := Option.map_eq_some_iff.mp hr
        exact hkey ▸ hputs w List.mem_cons_self value hvalue
      · rw [write_of_ne c hkey] at hr
        exact h key r hr

/-- What a log would put back keeps a property when the contents change to others that have it. -/
theorem All.undo {log : UndoLog} (h : (log.undo c).All P) (hd : d.All P) :
    (log.undo d).All P := by
  intro key r hr
  by_cases hnoted : log.notes key = true
  · rw [UndoLog.undo_of_notes hnoted d c] at hr
    exact h key r hr
  · rw [UndoLog.undo_of_not_notes (Bool.eq_false_iff.mpr hnoted)] at hr
    exact hd key r hr

end Contents

namespace Session

variable {s s' t : Session}

/-! ## What stays -/

/-- The records and the transaction have not changed, nor what was settled at the opening. -/
structure Kept (s s' : Session) : Prop where
  profile : s'.profile = s.profile
  tables : s'.backend.toTables = s.backend.toTables
  transaction : s'.transaction = s.transaction

theorem Still.kept (h : s.Still s') : s.Kept s' := ⟨h.profile, h.tables, h.transaction⟩

/-- To publish a notice is to keep everything else. -/
theorem kept_of_publish {origin : Origin} {n : Notice} (h : (t.publish origin n).2.Aside s') :
    t.Kept s' := by
  rw [h, publish]
  split <;> exact ⟨rfl, rfl, rfl⟩

theorem Kept.contents (h : s.Kept s') : s'.backend.contents = s.backend.contents := by
  rw [Tables.contents, Tables.contents, h.tables]

theorem Kept.inTransaction (h : s.Kept s') : s'.inTransaction = s.inTransaction := by
  rw [Session.inTransaction, Session.inTransaction, h.transaction]

theorem Kept.space (h : s.Kept s') : s'.space = s.space := by
  rw [Session.space, Session.space, h.profile]

/-- The profile of a store is settled at its opening. -/
theorem Turn.profile {e : Event} (h : s.Turn e s') : s'.profile = s.profile := by
  cases h with
  | still hstill _ => exact hstill.profile
  | wrote _ _ hwrote haside => exact (kept_of_publish haside).profile.trans hwrote.profile
  | cleared _ _ haside => exact (kept_of_publish haside).profile
  | started _ _ hs' => rw [hs']
  | committed _ _ haside => exact (kept_of_publish haside).profile
  | rolledBack _ _ => rfl

theorem profile_run (s : Session) (events : List Event) : (s.run events).profile = s.profile := by
  induction events generalizing s with
  | nil => rfl
  | cons e events ih => exact (ih _).trans (s.handle_turn e).profile

theorem checkKey_congr (h : s'.profile = s.profile) : s'.checkKey = s.checkKey := by
  funext key
  rw [checkKey, checkKey, space, space, h]

/-! ## Settled contents -/

/-- The contents without what an active transaction has done. -/
def settled (s : Session) : Contents Stored :=
  if s.inTransaction then s.transaction.log.undo s.backend.contents else s.backend.contents

theorem settled_of_idle (h : s.inTransaction = false) : s.settled = s.backend.contents := by
  rw [settled, h, if_neg Bool.false_ne_true]

theorem settled_of_active (h : s.inTransaction = true) :
    s.settled = s.transaction.log.undo s.backend.contents := by
  rw [settled, if_pos h]

theorem Kept.settled (h : s.Kept s') : s'.settled = s.settled := by
  rw [Session.settled, Session.settled, h.inTransaction, h.transaction, h.contents]

/-- A batch of this device inside a transaction is not settled. -/
theorem Wrote.settled_of_active {batch : List Write} (h : s.Wrote .here batch t)
    (hactive : s.inTransaction = true) : t.settled = s.settled := by
  rw [Session.settled_of_active (h.inTransaction.trans hactive), Session.settled_of_active hactive,
    h.undo_here hactive]

/-! ## The invariant -/

/-- A session all of whose records, and of those that a rollback would put back, have a property;
the log of an active transaction is sound. -/
structure AllRecords (P : Blob → Stored → Prop) (s : Session) : Prop where
  now : s.backend.contents.All P
  settled : s.settled.All P
  sound : s.inTransaction = true → s.transaction.log.Sound

/-- Whether the batch of an event, if one is written, puts only records with a property, whatever
time they are stamped with. -/
def PutsOnly (P : Blob → Stored → Prop) (s : Session) (e : Event) : Prop :=
  ∀ now op origin batch, e = .perform now op → (s.perform now op).1.isOk = true →
    s.batchOf? op = some (origin, batch) →
    ∀ w ∈ batch, ∀ value, w.value = some value →
      ∀ time, P w.key ⟨value, time, s.deviceOf origin⟩

namespace AllRecords

variable {P : Blob → Stored → Prop} {e : Event}

theorem of_idle (hidle : s.inTransaction = false) (h : s.backend.contents.All P) :
    s.AllRecords P where
  now := h
  settled := by rwa [settled_of_idle hidle]
  sound hactive := absurd (hidle ▸ hactive) Bool.false_ne_true

theorem of_empty (hidle : s.inTransaction = false) (h : s.backend.toTables = {}) :
    s.AllRecords P := by
  refine of_idle hidle ?_
  rw [h]
  exact Contents.all_none

theorem kept (h : s.AllRecords P) (hkept : s.Kept s') : s'.AllRecords P where
  now := by
    rw [hkept.contents]
    exact h.now
  settled := by
    rw [hkept.settled]
    exact h.settled
  sound hactive := by
    rw [hkept.inTransaction] at hactive
    rw [hkept.transaction]
    exact h.sound hactive

/-- A batch is written over the records that are there, or over none. -/
theorem wrote (h : s.AllRecords P) {origin : Origin} {batch : List Write}
    (hwrote : s.Wrote origin batch t)
    (hputs : ∀ w ∈ batch, ∀ value, w.value = some value →
      ∀ time, P w.key ⟨value, time, s.deviceOf origin⟩) : t.AllRecords P := by
  have hnow : t.backend.contents.All P := by
    rw [hwrote.contents]
    exact h.now.writeAll fun w hw value hvalue => hputs w hw value hvalue _
  by_cases hactive : s.inTransaction = true
  · have hactive' := hwrote.inTransaction.trans hactive
    refine ⟨hnow, ?_, fun _ => ?_⟩
    · cases origin with
      | here =>
          rw [hwrote.settled_of_active hactive]
          exact h.settled
      | remote device =>
          -- the log stays, and what it does not note is as the batch leaves it
          have hlog : t.transaction.log = s.transaction.log := by
            rw [hwrote.transaction]
            rfl
          have hsettled := h.settled
          rw [settled_of_active hactive] at hsettled
          rw [settled_of_active hactive', hlog]
          exact hsettled.undo hnow
    · cases origin with
      | here =>
          rw [hwrote.log_here hactive]
          exact (h.sound hactive).extend (Write.nodup_touched batch)
      | remote device =>
          rw [hwrote.transaction]
          exact h.sound hactive
  · exact .of_idle (hwrote.inTransaction.trans (Bool.eq_false_iff.mpr hactive)) hnow

theorem undone (h : s.AllRecords P) (hactive : s.inTransaction = true) : s.undone.AllRecords P := by
  refine of_idle rfl ?_
  rw [contents_undone (h.sound hactive), ← settled_of_active hactive]
  exact h.settled

/-- **One event keeps what all records have in common**, if its batch puts such records only. -/
theorem turn (h : s.AllRecords P) (hputs : s.PutsOnly P e) (hturn : s.Turn e s') :
    s'.AllRecords P := by
  cases hturn with
  | still hstill _ => exact h.kept hstill.kept
  | wrote hok hbatch hwrote haside =>
      exact (h.wrote hwrote (hputs _ _ _ _ rfl hok hbatch)).kept (kept_of_publish haside)
  | cleared _ hidle haside =>
      refine (of_idle ?_ ?_).kept (kept_of_publish haside)
      · exact hidle
      · exact Contents.all_none
  | started _ hidle hs' =>
      rw [hs']
      exact ⟨h.now, h.now, fun _ => UndoLog.sound_nil⟩
  | committed _ _ haside =>
      refine (of_idle ?_ ?_).kept (kept_of_publish haside)
      · rfl
      · exact h.now
  | rolledBack _ hactive => exact h.undone hactive

/-- A run keeps what all records have in common, if no call on a store with its profile puts other
records. -/
theorem run (h : s.AllRecords P)
    (hputs : ∀ t : Session, t.profile = s.profile → ∀ e, t.PutsOnly P e) (events : List Event) :
    (s.run events).AllRecords P := by
  induction events generalizing s with
  | nil => exact h
  | cons e events ih =>
      have hturn := s.handle_turn e
      refine ih (h.turn (hputs s rfl e) hturn) fun t ht => hputs t ?_
      exact ht.trans hturn.profile

/-- Closing the store ends a transaction, whether or not the backend lets it be undone. -/
theorem close (h : s.AllRecords P) : s.close.AllRecords P := by
  have habandon : s.abandon.AllRecords P := by
    rcases s.abandon_cases with ⟨-, hsame⟩ | ⟨hactive, hundone | hrefused⟩
    · rwa [hsame]
    · rw [hundone]
      exact h.undone hactive
    · rw [hrefused]
      exact of_idle rfl h.now
  by_cases hopen : s.isOpen = true
  · rw [close_eq hopen]
    exact habandon.kept ⟨rfl, rfl, rfl⟩
  · rwa [Session.close, if_neg hopen]

end AllRecords

end Session

end PeerStore
