import PeerStore.Proofs.Store.Open
import PeerStore.Proofs.Store.Told

/-!
# A transaction among itself

While a transaction is active and no batch of another device arrives, a rollback would give back
what there was at the start, and nobody is told anything (`Session.Within`); what is new is of this
device (`Session.AddsOwn`). One event keeps this (`Within.handle`), and so does every run of them.
So the end of the transaction can be told by the records at its start: a rollback gives them back
(`Within.rollback`), and a commit tells those as deleted that are gone (**`Within.commit`**).
-/

set_option autoImplicit false

namespace PeerStore

/-- Whether an event neither brings a batch of another device nor ends a transaction. -/
def Event.isWithin : Event → Bool
  | .perform _ (.applyRemote ..) | .perform _ .commit | .perform _ .rollback => false
  | _ => true

namespace Session

variable {s₀ s s' t : Session}

/-- Such an event writes as this device only. -/
theorem origin_of_isWithin {now : Int} {op : Operation} {origin : Origin} {batch : List Write}
    (hwithin : (Event.perform now op).isWithin = true)
    (h : s.batchOf? op = some (origin, batch)) : origin = .here := by
  cases op with
  | removeDeviceData network =>
      obtain ⟨device, -, hbatch⟩ := Option.map_eq_some_iff.mp h
      cases hbatch
      rfl
  | put | putBatch | delete | deleteBatch | clear =>
      cases h
      rfl
  | applyRemote | commit | rollback => cases hwithin
  | _ => exact absurd h (by simp [batchOf?, Operation.batch?])

theorem isOpen_handle (s : Session) (e : Event) : (s.handle e).isOpen = s.isOpen := by
  cases e with
  | perform now op => exact (s.perform_settled now op).2
  | failWrites | register | unregister => rfl

/-! ## New records -/

/-- Whether each record is one of this device or was there in an earlier session. -/
def AddsOwn (s s' : Session) : Prop := ∀ key r, s'.backend.contents key = some r →
  r.device = s'.profile.device ∨ s.backend.contents key = some r

theorem AddsOwn.refl (s : Session) : s.AddsOwn s := fun _ _ hr => .inr hr

theorem AddsOwn.trans (h : s.AddsOwn s') (h' : s'.AddsOwn t) (hprofile : t.profile = s'.profile) :
    s.AddsOwn t := by
  intro key r hr
  rcases h' key r hr with hown | hr'
  · exact .inl hown
  · rw [hprofile]
    exact h key r hr'

theorem addsOwn_of_contents (h : s'.backend.contents = s.backend.contents) : s.AddsOwn s' :=
  fun _ _ hr => .inr (h ▸ hr)

/-- A batch of this device puts its records over those that are there. -/
theorem Wrote.addsOwn {batch : List Write} (h : s.Wrote .here batch t) : s.AddsOwn t := by
  intro key r hr
  by_cases hkey : key ∈ Write.touched batch
  · have hget : t.backend.get? key = some (.ofStored key r) :=
      Backend.get?_eq_some_iff.mpr ⟨rfl, hr⟩
    rw [h.profile]
    exact .inl (h.device_of_mem hkey hget)
  · rw [h.contents_of_not_mem hkey] at hr
    exact .inr hr

/-- A session inside a transaction that began in `s₀` and has met no batch of another device. -/
structure Within (s₀ s : Session) : Prop where
  isOpen : s.isOpen = true
  active : s.inTransaction = true
  profile : s.profile = s₀.profile
  sound : s.transaction.log.Sound
  settled : s.settled = s₀.backend.contents
  published : s.published = s₀.published

/-- What is held back inside a transaction is not published. -/
theorem published_of_active (hactive : t.inTransaction = true) {n : Notice}
    (h : (t.publish .here n).2.Aside s') : s'.published = t.published := by
  rw [inTransaction] at hactive
  have hpublish : t.publish .here n = (false, t) := by
    rw [publish, if_pos]
    simp [hactive]
  rw [hpublish] at h
  rw [h]

namespace Within

theorem wrote (h : s₀.Within s) {batch : List Write} (hwrote : s.Wrote .here batch t) :
    s₀.Within t where
  isOpen := hwrote.isOpen.trans h.isOpen
  active := hwrote.inTransaction.trans h.active
  profile := hwrote.profile.trans h.profile
  sound := by
    rw [hwrote.log_here h.active]
    exact h.sound.extend (Write.nodup_touched batch)
  settled := (hwrote.settled_of_active h.active).trans h.settled
  published := hwrote.published.trans h.published

theorem kept (h : s₀.Within s) (hkept : s.Kept s') (hopen : s'.isOpen = s.isOpen)
    (hpublished : s'.published = s.published) : s₀.Within s' where
  isOpen := hopen.trans h.isOpen
  active := hkept.inTransaction.trans h.active
  profile := hkept.profile.trans h.profile
  sound := by
    rw [hkept.transaction]
    exact h.sound
  settled := hkept.settled.trans h.settled
  published := hpublished.trans h.published

/-- **One event inside the transaction.** -/
theorem handle (h : s₀.Within s) {e : Event} (hwithin : e.isWithin = true) :
    s₀.Within (s.handle e) ∧ s.AddsOwn (s.handle e) := by
  have hopen := s.isOpen_handle e
  have hturn := s.handle_turn e
  generalize s.handle e = s' at hopen hturn
  cases hturn with
  | still hstill _ =>
      exact ⟨h.kept hstill.kept hopen hstill.published,
        addsOwn_of_contents hstill.kept.contents⟩
  | @wrote now op origin batch t _ _ hbatch hwrote haside =>
      obtain rfl := origin_of_isWithin hwithin hbatch
      have hinv := h.wrote hwrote
      have hkept := kept_of_publish haside
      refine ⟨hinv.kept hkept (hopen.trans hwrote.isOpen.symm)
        (published_of_active hinv.active haside), ?_⟩
      exact hwrote.addsOwn.trans (addsOwn_of_contents hkept.contents) hkept.profile
  | cleared _ hidle _ | started _ hidle _ => exact absurd (hidle ▸ h.active) Bool.false_ne_true
  | committed | rolledBack => cases hwithin

theorem run (h : s₀.Within s) {events : List Event}
    (hwithin : ∀ e ∈ events, e.isWithin = true) :
    s₀.Within (s.run events) ∧ s.AddsOwn (s.run events) := by
  induction events generalizing s with
  | nil => exact ⟨h, .refl s⟩
  | cons e events ih =>
      obtain ⟨hnext, hadds⟩ := h.handle (hwithin e List.mem_cons_self)
      obtain ⟨hend, hadds'⟩ := ih hnext fun e' he' => hwithin e' (List.mem_cons_of_mem e he')
      exact ⟨hend, hadds.trans hadds' (hend.profile.trans hnext.profile.symm)⟩

/-! ## The end -/

/-- **A rollback gives every record of the start back.** -/
theorem rollback (h : s₀.Within s) {u : Session} (hrollback : s.rollback = (.ok (), u))
    {key : Blob} : u.backend.get? key = s₀.backend.get? key := by
  obtain ⟨-, rfl⟩ := undone_of_rollback hrollback
  have hcontents : s.undone.backend.contents = s₀.backend.contents :=
    calc s.undone.backend.contents
        = s.transaction.log.undo s.backend.contents := contents_undone h.sound
      _ = s.settled := (settled_of_active h.active).symm
      _ = s₀.backend.contents := h.settled
  exact congrArg (Option.map (Record.ofStored key)) (congrFun hcontents key)

/-- A key that the transaction has not touched holds what it held at the start. -/
theorem get?_of_not_touched (h : s₀.Within s) {key : Blob}
    (hkey : key ∉ s.transaction.log.map (·.1)) : s.backend.get? key = s₀.backend.get? key := by
  have hcontents : s₀.backend.contents key = s.backend.contents key := by
    rw [← h.settled, settled_of_active h.active, UndoLog.undo_of_not_notes]
    rw [Bool.eq_false_iff, Ne, UndoLog.notes_iff]
    exact hkey
  exact congrArg (Option.map (Record.ofStored key)) hcontents.symm

/-- The records of the start whose keys the transaction has touched and that are gone. -/
def lost (s₀ s : Session) : List Record :=
  (s.transaction.log.map (·.1)).filterMap fun key =>
    if s.backend.get? key = none then s₀.backend.get? key else none

theorem mem_lost_iff (h : s₀.Within s) {r : Record} :
    r ∈ lost s₀ s ↔ s₀.backend.get? r.key = some r ∧ s.backend.get? r.key = none := by
  rw [lost, List.mem_filterMap]
  constructor
  · rintro ⟨key, -, hr⟩
    obtain ⟨hgone, hr⟩ := Option.ite_none_right_eq_some.mp hr
    obtain rfl := Backend.key_of_get? hr
    exact ⟨hr, hgone⟩
  · rintro ⟨hr, hgone⟩
    refine ⟨r.key, ?_, by rw [if_pos hgone, hr]⟩
    -- a key that was not touched would not be gone
    by_contra hkey
    rw [h.get?_of_not_touched hkey, hr] at hgone
    cases hgone

theorem nodup_lost (h : s₀.Within s) : ((lost s₀ s).map (·.key)).Nodup := by
  let found (key : Blob) : Option Record :=
    if s.backend.get? key = none then s₀.backend.get? key else none
  have hkeys : (lost s₀ s).map (·.key)
      = (s.transaction.log.map (·.1)).filter fun key => (found key).isSome := by
    rw [lost, List.map_filterMap, ← List.filterMap_eq_filter]
    refine List.filterMap_congr fun key _ => ?_
    show (found key).map (·.key) = _
    cases hfound : found key with
    | none => simp [Option.guard, hfound]
    | some r =>
        have hkey : r.key = key := Backend.key_of_get? (Option.ite_none_right_eq_some.mp hfound).2
        simp [Option.guard, hfound, hkey]
  -- so they are some of the keys of the log, which differ
  rw [hkeys]
  exact h.sound.nodup.filter _

/-- The values that a commit finds at the start. -/
theorem settled_values (h : s₀.Within s) (key : Blob) :
    s.settled.values key = (s₀.backend.get? key).map (·.value) := by
  rw [h.settled, ← Backend.values_eq_values]
  rfl

/-- **A commit tells as deleted what is lost**, under the keys of those who had it. -/
theorem deletes_netNotice (h : s₀.Within s) :
    (s.netNotice s.transaction.log).deletes = (lost s₀ s).map s.userEntry := by
  rw [(retells_netNotice h.active h.sound).deletes, Notice.deletes_ofTouched, lost,
    List.map_filterMap, List.map_filterMap]
  refine List.filterMap_congr fun key hkey => ?_
  rw [h.settled_values, Backend.values]
  cases hnow : s.backend.get? key with
  | some r => simp
  | none =>
      cases hstart : s₀.backend.get? key with
      | none => simp
      | some r =>
          obtain ⟨rfl, hr⟩ := Backend.get?_eq_some_iff.mp hstart
          -- a key that is gone is told as that of the device that had it at the start
          obtain ⟨⟨key, prior⟩, hmem, hkey⟩ := List.mem_map.mp hkey
          obtain rfl : key = r.key := hkey
          have hgone : s.backend.contents r.key = none := Option.map_eq_none_iff.mp hnow
          have hcommitter : s.committer r.key = r.device :=
            committer_eq_of_gone h.active h.sound hmem hgone ((congrFun h.settled _).trans hr)
          simp [userEntry, hcommitter]

/-- A record that the transaction has put under a key of the start is told as updated. -/
theorem mem_updates_netNotice (h : s₀.Within s) {r r' : Record}
    (hr : s₀.backend.get? r.key = some r) (hr' : s.backend.get? r.key = some r') (hne : r' ≠ r) :
    s.userEntry r' ∈ (s.netNotice s.transaction.log).updates := by
  have htouched : r.key ∈ s.transaction.log.map (·.1) := by
    by_contra hkey
    rw [h.get?_of_not_touched hkey, hr] at hr'
    exact hne (Option.some.inj hr').symm
  obtain ⟨hkey, hcontents⟩ := Backend.get?_eq_some_iff.mp hr'
  rw [(retells_netNotice h.active h.sound).updates, Notice.updates_ofTouched, List.map_filterMap,
    List.mem_filterMap]
  refine ⟨r.key, htouched, ?_⟩
  rw [h.settled_values, hr, Backend.values, hr']
  have hcommitter : s.committer r.key = r'.device := committer_eq_of_present hcontents
  simp [userEntry, hcommitter, hkey]

/-- **What a commit tells.** It succeeds, and publishes its notice unless there is nothing to tell.
As deleted it tells the records of the start whose keys are gone, each once; as updated, among
others, each record that the transaction has put under a key of the start. -/
theorem commit (h : s₀.Within s) :
    ∃ (u : Session) (n : Notice) (gone : List Record), s.commit = (.ok (), u)
      ∧ u.published = s.published ++ (if n.isEmpty = true then [] else [(.here, n)])
      ∧ n.deletes = gone.map s.userEntry ∧ (gone.map (·.key)).Nodup
      ∧ (∀ r, r ∈ gone ↔ s₀.backend.get? r.key = some r ∧ s.backend.get? r.key = none)
      ∧ ∀ r r', s₀.backend.get? r.key = some r → s.backend.get? r.key = some r' → r' ≠ r →
          s.userEntry r' ∈ n.updates := by
  have hpublished := (announce_of_idle
    (s := { s with transaction := { s.transaction with phase := .committed, log := [] } }) rfl .here
    (s.netNotice s.transaction.log)).1
  exact ⟨_, _, lost s₀ s, commit_eq h.isOpen h.active, hpublished, h.deletes_netNotice,
    h.nodup_lost, fun _ => h.mem_lost_iff, fun _ _ => h.mem_updates_netNotice⟩

end Within

end Session

end PeerStore
