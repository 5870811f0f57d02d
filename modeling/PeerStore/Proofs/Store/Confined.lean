import PeerStore.Proofs.Store.Records

/-!
# Whose records a store may hold

A store is *confined* by a relation between devices and stored keys if each of its records is under
a key that the device of the record may own, and each record that a rollback would put back as well
(`Session.Confined`). One event keeps a store confined if the keys that it writes may be owned by
the device that it writes them as (**`Confined.turn`**), and so does a run (`Confined.run`), with
batches of other devices also inside transactions. The relation is left open: it may be that a key
is in the form of its device, or that the device is one of a given list.
-/

set_option autoImplicit false

namespace PeerStore

/-! ## Contents -/

namespace Contents

/-- The values of contents. -/
def values (c : Contents Stored) : Contents Blob := fun key => (c key).map (·.value)

/-- Whether each record is under a key that its device may own. -/
def Confined (own : String → Blob → Prop) (c : Contents Stored) : Prop :=
  ∀ key r, c key = some r → own r.device key

variable {own : String → Blob → Prop} {c : Contents Stored}

theorem confined_none : Confined own fun _ => none := all_none

/-- A batch keeps contents confined if its device may own the keys that it puts. -/
theorem Confined.writeAll (h : c.Confined own) {batch : List Write} {time : Int} {device : String}
    (hown : ∀ w ∈ batch, w.value ≠ none → own device w.key) :
    (c.writeAll (fun value => ⟨value, time, device⟩) batch).Confined own := by
  refine All.writeAll (P := fun key r => own r.device key) h fun w hw value hvalue => ?_
  exact hown w hw (by simp [hvalue])

end Contents

namespace Session

variable {s s' t : Session}

/-! ## Devices that write -/

/-- The device whose batch an event applies. -/
def appliedFrom? (s : Session) : Event → Option String
  | .perform now (.applyRemote device puts deletes) =>
      if (s.perform now (.applyRemote device puts deletes)).1.isOk then some device else none
  | _ => none

/-- The devices whose batches are applied in a run from a session. -/
def peers (s : Session) : List Event → List String
  | [] => []
  | e :: events => (s.appliedFrom? e).toList ++ (s.handle e).peers events

/-- A batch that a call writes puts keys in the form of its device, if it puts any; the device is
this one, or the one whose batch is applied. -/
theorem put_of_batchOf? {now : Int} {op : Operation} {origin : Origin} {batch : List Write}
    (hok : (s.perform now op).1.isOk = true) (h : s.batchOf? op = some (origin, batch)) {w : Write}
    (hw : w ∈ batch) (hput : w.value ≠ none) :
    (s.deviceOf origin = s.profile.device
        ∨ s.appliedFrom? (.perform now op) = some (s.deviceOf origin))
      ∧ ∃ key, s.checkKey key = .ok () ∧ w.key = s.space.remoteKey (s.deviceOf origin) key := by
  cases op with
  | clear =>
      cases h
      obtain ⟨r, -, rfl⟩ := List.mem_map.mp hw
      exact absurd rfl hput
  | removeDeviceData network =>
      obtain ⟨device, -, hbatch⟩ := Option.map_eq_some_iff.mp h
      cases hbatch
      obtain ⟨key, -, rfl⟩ := List.mem_map.mp hw
      exact absurd rfl hput
  | put | putBatch | delete | deleteBatch =>
      simp only [batchOf?] at h
      refine ⟨.inl ?_, valid_of_batch? h hok w hw⟩
      cases h
      rfl
  | applyRemote device puts deletes =>
      simp only [batchOf?] at h
      refine ⟨.inr ?_, valid_of_batch? h hok w hw⟩
      cases h
      rw [appliedFrom?, if_pos hok]
      rfl
  | _ => exact absurd h (by simp [batchOf?, Operation.batch?])

/-! ## The invariant -/

/-- A session whose records, and those that a rollback would put back, are under keys that their
devices may own; the log of an active transaction is sound. -/
structure Confined (own : String → Blob → Prop) (s : Session) : Prop where
  now : s.backend.contents.Confined own
  settled : s.settled.Confined own
  sound : s.inTransaction = true → s.transaction.log.Sound

/-- Whether a device may own the stored forms of all valid keys of a session. -/
def MayWrite (own : String → Blob → Prop) (s : Session) (device : String) : Prop :=
  ∀ key, s.checkKey key = .ok () → own device (s.space.remoteKey device key)

theorem MayWrite.congr {own : String → Blob → Prop} {device : String} (h : MayWrite own s device)
    (hprofile : s'.profile = s.profile) : MayWrite own s' device := by
  intro key hkey
  rw [checkKey_congr hprofile] at hkey
  rw [space, hprofile]
  exact h key hkey

namespace Confined

variable {own : String → Blob → Prop} {e : Event}

/-- To be confined is a property that all records have. -/
theorem iff_allRecords : s.Confined own ↔ s.AllRecords fun key r => own r.device key :=
  ⟨fun h => ⟨h.now, h.settled, h.sound⟩, fun h => ⟨h.now, h.settled, h.sound⟩⟩

theorem of_idle (hidle : s.inTransaction = false) (h : s.backend.contents.Confined own) :
    s.Confined own :=
  iff_allRecords.mpr (.of_idle hidle h)

theorem kept (h : s.Confined own) (hkept : s.Kept s') : s'.Confined own :=
  iff_allRecords.mpr ((iff_allRecords.mp h).kept hkept)

/-- **One event keeps a store confined**, if this device and the one whose batch is applied may own
what they write. -/
theorem turn (h : s.Confined own) (hself : MayWrite own s s.profile.device)
    (hpeer : ∀ device, s.appliedFrom? e = some device → MayWrite own s device)
    (hturn : s.Turn e s') : s'.Confined own := by
  refine iff_allRecords.mpr ((iff_allRecords.mp h).turn ?_ hturn)
  rintro now op origin batch rfl hok hbatch w hw value hvalue time
  obtain ⟨hwriter, key, hkey, hform⟩ := put_of_batchOf? hok hbatch hw (by simp [hvalue])
  rw [hform]
  rcases hwriter with hself' | hpeer'
  · show own (s.deviceOf origin) _
    rw [hself']
    exact hself key hkey
  · exact hpeer _ hpeer' key hkey

theorem run (h : s.Confined own) (hself : MayWrite own s s.profile.device) {events : List Event}
    (hpeers : ∀ device ∈ s.peers events, MayWrite own s device) : (s.run events).Confined own := by
  induction events generalizing s with
  | nil => exact h
  | cons e events ih =>
      have hturn := s.handle_turn e
      refine ih (h.turn hself (fun device hdevice => ?_) hturn) ?_ fun device hdevice => ?_
      · exact hpeers device (List.mem_append_left _ (by simp [hdevice]))
      · rw [hturn.profile]
        exact hself.congr hturn.profile
      · exact (hpeers device (List.mem_append_right _ hdevice)).congr hturn.profile

end Confined

end Session

end PeerStore
