import PeerStore.Proofs.Store.View

/-!
# A store is a map for each device

A store that keeps devices apart does what maps do, one for each device, in every run among devices
none of whose ids is a prefix of another (**`simulates_maps`**). `Holds` relates a session to maps:
those now, and those at the start of its transaction. One event leads from related to related
(`Holds.turn`), and what it publishes tells how the settled maps have changed
(`Holds.turn_reports`). At every moment users see the maps (`Shows`).
-/

set_option autoImplicit false

namespace PeerStore

namespace Session

variable {s s' t : Session} {devices : List String} {m : Maps} {e : Event} {now : Int}
  {op : Operation} {origin : Origin} {batch : List Write}

/-! ## Batches in the keys of users -/

/-- The batch of a call is one of user keys, put into the form of its device, and is what the call
means for the map of this device. -/
theorem exists_writes_of_batch? (hspace : s.space = .perDevice s.profile.device)
    (h : op.batch? s.space = some (origin, batch)) :
    ∃ writes : List Write,
      batch = writes.map (fun w => { w with key := Blob.ofString (s.deviceOf origin) ++ w.key })
        ∧ ∀ (f : Family) (directory : Directory),
          f.after s.profile.device directory op = f.write (s.deviceOf origin) writes := by
  rw [hspace] at h
  cases op with
  | put key value =>
      cases h
      exact ⟨[.put key value], rfl, fun _ _ => rfl⟩
  | putBatch es =>
      cases h
      exact ⟨es.map fun e => .put e.key e.value, by rw [List.map_map]; rfl, fun _ _ => rfl⟩
  | delete key =>
      cases h
      exact ⟨[.remove key], rfl, fun _ _ => rfl⟩
  | deleteBatch keys =>
      cases h
      exact ⟨keys.map .remove, by rw [List.map_map]; rfl, fun _ _ => rfl⟩
  | applyRemote device puts deletes =>
      cases h
      refine ⟨puts.map (fun e => .put e.key e.value) ++ deletes.map .remove, ?_, fun _ _ => rfl⟩
      rw [List.map_append, List.map_map, List.map_map]
      rfl
  | _ => exact absurd h (by simp [Operation.batch?])

/-! ## The relation -/

/-- A session that keeps devices apart and holds maps, one for each device: its records are their
entries, under the ids of the devices and valid keys, and what a rollback would leave is the maps at
the start of the transaction. -/
structure Holds (devices : List String) (s : Session) (m : Maps) : Prop where
  space : s.space = .perDevice s.profile.device
  confined : s.Confined (s.Owns devices)
  indexed : s.backend.Indexed
  now : s.backend.contents.family = m.now
  start : m.start = if s.inTransaction then some s.settled.family else none

namespace Holds

theorem among (h : s.Holds devices m) : s.backend.contents.Confined (Among devices) :=
  h.confined.now.mono fun _ _ => Owns.among

theorem settled_among (h : s.Holds devices m) : s.settled.Confined (Among devices) :=
  h.confined.settled.mono fun _ _ => Owns.among

theorem start_of_idle (h : s.Holds devices m) (hidle : s.inTransaction = false) :
    m.start = none := by
  rw [h.start, hidle, if_neg Bool.false_ne_true]

/-- The settled maps are those of the settled records. -/
theorem settled (h : s.Holds devices m) : s.settled.family = m.settled := by
  rw [Maps.settled, h.start]
  split
  · rfl
  · rw [Session.settled_of_idle (Bool.eq_false_iff.mpr ‹_›), h.now]
    rfl

theorem kept (h : s.Holds devices m) (hkept : s.Kept s') : s'.Holds devices m where
  space := by rw [hkept.space, hkept.profile, h.space]
  confined := by
    rw [owns_congr hkept.profile]
    exact h.confined.kept hkept
  indexed := by
    rw [hkept.tables]
    exact h.indexed
  now := by rw [hkept.contents, h.now]
  start := by rw [hkept.inTransaction, hkept.settled, h.start]

/-- Every device of a list may write its valid keys. -/
theorem mayWrite (h : s.Holds devices m) {device : String} (hdevice : device ∈ devices) :
    MayWrite (s.Owns devices) s device := by
  intro key hkey
  rw [h.space]
  exact ⟨hdevice, key, hkey, rfl⟩

/-- **A batch does to the maps what its call means for them.** -/
theorem wrote (h : s.Holds devices m) (hfree : PrefixFree devices)
    (hdevice : op.batch? s.space = some (origin, batch) → s.deviceOf origin ∈ devices)
    (hbatch : s.batchOf? op = some (origin, batch)) (hwrote : s.Wrote origin batch t) :
    t.backend.contents.family = m.now.after s.profile.device s.directory op := by
  rw [← h.now, hwrote.contents]
  -- a call that is a batch of its own writes in the map of its device
  have hown (hcall : op.batch? s.space = some (origin, batch)) :
      (s.backend.contents.writeAll (fun value => ⟨value, t.lastWrite, s.deviceOf origin⟩)
          batch).family
        = s.backend.contents.family.after s.profile.device s.directory op := by
    obtain ⟨writes, rfl, hafter⟩ := exists_writes_of_batch? h.space hcall
    rw [hafter]
    exact Contents.family_writeAll h.among hfree (hdevice hcall) t.lastWrite writes
  cases op with
  | clear =>
      cases hbatch
      rw [Contents.writeAll_remove_snapshot]
      rfl
  | removeDeviceData network =>
      obtain ⟨device, hresolve, hbatch⟩ := Option.map_eq_some_iff.mp hbatch
      cases hbatch
      rw [Family.after, hresolve]
      exact Contents.family_writeAll_remove fun key => Backend.mem_keysFromDevice_iff h.indexed
  | _ => exact hown hbatch

end Holds

/-! ## One event -/

/-- What a call means that writes a batch: the maps now change, those at the start of a transaction
do not. -/
theorem after_of_batchOf? (h : s.batchOf? op = some (origin, batch)) (m : Maps) (self : String)
    (directory : Directory) :
    m.after self directory op = { m with now := m.now.after self directory op } := by
  cases op with
  | startTransaction | commit | rollback => exact absurd h (by simp [batchOf?, Operation.batch?])
  | _ => rfl

theorem next_of_ok (hok : (s.perform now op).1.isOk = true) (m : Maps) :
    m.next s (.perform now op) = m.after s.profile.device s.directory op :=
  if_pos hok

/-- A batch of another device is one that was received. -/
theorem isRemote_of_batchOf? {device : String} (h : s.batchOf? op = some (.remote device, batch)) :
    (Event.perform now op).isRemote = true := by
  cases op with
  | applyRemote => rfl
  | removeDeviceData network =>
      obtain ⟨device, -, hbatch⟩ := Option.map_eq_some_iff.mp h
      exact absurd hbatch (by simp)
  | _ => exact absurd h (by simp [batchOf?, Operation.batch?])

/-- A batch that a call writes is of this device or of the one whose batch is applied. -/
theorem deviceOf_mem (hok : (s.perform now op).1.isOk = true) (hself : s.profile.device ∈ devices)
    (hpeer : ∀ device, s.appliedFrom? (.perform now op) = some device → device ∈ devices)
    (h : op.batch? s.space = some (origin, batch)) : s.deviceOf origin ∈ devices := by
  cases op with
  | applyRemote device puts deletes =>
      cases h
      exact hpeer device (if_pos hok)
  | put | putBatch | delete | deleteBatch =>
      cases h
      exact hself
  | _ => exact absurd h (by simp [Operation.batch?])

/-- An event leaves the maps unless it is a call that changes them. -/
theorem next_of_still (h : ∀ now op, e = .perform now op → (s.perform now op).1.isOk = true →
    op.isChange = false) (m : Maps) : m.next s e = m := by
  cases e with
  | perform now op =>
      rw [Maps.next]
      split
      · exact Maps.after_of_not_isChange (h now op rfl ‹_›) m _ _
      · rfl
  | _ => rfl

/-- A notice is published when all is settled: what was heard before is what was settled, and no
transaction is active any more. -/
theorem Turn.heard (hturn : s.Turn e s') (hremote : e.isRemote = true → s.inTransaction = false)
    (htold : s'.published ≠ s.published) :
    s.heardBefore e = s.settled ∧ s'.inTransaction = false := by
  cases hturn with
  | still hstill _ => exact absurd hstill.published htold
  | @wrote now op origin batch t _ hok hbatch hwrote haside =>
      have hidle : s.inTransaction = false := by
        cases origin with
        | remote device => exact hremote (isRemote_of_batchOf? hbatch)
        | here =>
            -- a notice of this device is held back while its transaction is active
            obtain ⟨told, hpublished, hall⟩ := told_of_publish haside
            rw [hwrote.published] at hpublished
            cases told with
            | nil => exact absurd (hpublished.trans (List.append_nil _)) htold
            | cons x told =>
                rw [← hwrote.inTransaction]
                exact (hall x List.mem_cons_self).2 rfl
      rw [heardBefore_of_batchOf? hbatch, settled_of_idle hidle,
        (kept_of_publish haside).inTransaction, hwrote.inTransaction]
      exact ⟨rfl, hidle⟩
  | cleared _ hidle haside =>
      rw [(kept_of_publish haside).inTransaction]
      exact ⟨(settled_of_idle hidle).symm, hidle⟩
  | started _ _ hs' => exact absurd (by rw [hs']) htold
  | committed _ _ haside =>
      rw [(kept_of_publish haside).inTransaction]
      exact ⟨rfl, rfl⟩
  | rolledBack _ _ => exact absurd rfl htold

namespace Holds

/-- **One event leads from a session that holds maps to one that holds the maps after the event**,
if batches of other devices arrive outside transactions only. -/
theorem turn (h : s.Holds devices m) (hfree : PrefixFree devices)
    (hself : s.profile.device ∈ devices)
    (hpeer : ∀ device, s.appliedFrom? e = some device → device ∈ devices)
    (hremote : e.isRemote = true → s.inTransaction = false) (hturn : s.Turn e s') :
    s'.Holds devices (m.next s e) := by
  have hspace : s'.space = .perDevice s'.profile.device := by
    rw [Session.space, hturn.profile]
    exact h.space
  have hconfined : s'.Confined (s'.Owns devices) := by
    rw [owns_congr hturn.profile]
    have hpeers (device : String) (hdevice : s.appliedFrom? e = some device) :
        MayWrite (s.Owns devices) s device := h.mayWrite (hpeer device hdevice)
    exact h.confined.turn (h.mayWrite hself) hpeers hturn
  cases hturn with
  | still hstill hnot =>
      rw [next_of_still hnot]
      exact h.kept hstill.kept
  | @wrote now op origin batch t _ hok hbatch hwrote haside =>
      have hkept := kept_of_publish haside
      have hnow := h.wrote hfree (deviceOf_mem hok hself hpeer) hbatch hwrote
      rw [next_of_ok hok, after_of_batchOf? hbatch]
      refine ⟨hspace, hconfined, ?_, ?_, ?_⟩
      · rw [hkept.tables]
        exact hwrote.indexed h.indexed
      · rw [hkept.contents, hnow]
      · rw [hkept.inTransaction, hkept.settled, hwrote.inTransaction]
        show m.start = _
        rw [h.start]
        by_cases hactive : s.inTransaction = true
        · cases origin with
          | here => rw [hwrote.settled_of_active hactive]
          | remote device =>
              -- the log would not take note of it, and a rollback could lose it
              have hidle := hremote (isRemote_of_batchOf? hbatch)
              exact absurd (hidle ▸ hactive) Bool.false_ne_true
        · rw [if_neg hactive, if_neg hactive]
  | @cleared now _ hok hidle haside =>
      have hkept := kept_of_publish haside
      rw [next_of_ok hok]
      refine ⟨hspace, hconfined, ?_, ?_, ?_⟩
      · rw [hkept.tables]
        exact Tables.indexed_empty
      · rw [hkept.contents]
        rfl
      · rw [hkept.inTransaction]
        show m.start = _
        rw [h.start_of_idle hidle]
        exact (if_neg (Bool.eq_false_iff.mp hidle)).symm
  | @started now _ hok hidle hs' =>
      rw [next_of_ok hok]
      subst hs'
      exact ⟨hspace, hconfined, h.indexed, h.now, congrArg some h.now.symm⟩
  | @committed now _ hok hactive haside =>
      have hkept := kept_of_publish haside
      rw [next_of_ok hok]
      refine ⟨hspace, hconfined, ?_, ?_, ?_⟩
      · rw [hkept.tables]
        exact h.indexed
      · rw [hkept.contents]
        exact h.now
      · rw [hkept.inTransaction]
        rfl
  | @rolledBack now hok hactive =>
      rw [next_of_ok hok]
      refine ⟨hspace, hconfined, indexed_undone h.indexed, ?_, rfl⟩
      rw [contents_undone (h.confined.sound hactive), ← settled_of_active hactive]
      exact h.settled

/-- **What one event publishes tells how the settled maps have changed.** -/
theorem turn_reports (h : s.Holds devices m) (hfree : PrefixFree devices)
    (hnext : s'.Holds devices (m.next s e))
    (hremote : e.isRemote = true → s.inTransaction = false) (hturn : s.Turn e s') :
    ∃ told, s'.published = s.published ++ told
      ∧ ∀ x ∈ told, x.2.Reports m.settled (m.next s e).settled := by
  by_cases hsilent : s'.published = s.published
  · exact ⟨[], by rw [hsilent, List.append_nil], fun x hx => absurd hx List.not_mem_nil⟩
  · obtain ⟨told, htold, hretells⟩ := hturn.retells h.confined.sound
    refine ⟨told, htold, fun x hx => ?_⟩
    obtain ⟨hheard, hidle⟩ := hturn.heard hremote hsilent
    obtain ⟨stored, owner, hx⟩ := hretells x hx
    rw [h.space, hheard, ← settled_of_idle hidle] at hx
    rw [← h.settled, ← hnext.settled]
    exact hx.reports hfree h.settled_among hnext.settled_among

end Holds

/-! ## Runs -/

/-- Whether a run does what maps do, one for each device. At every moment users see the maps; an
event does to the session what it means for the maps; and what it publishes tells how the settled
maps have changed, in the keys of users. -/
def Simulates (devices : List String) (s : Session) (m : Maps) : List Event → Prop
  | [] => s.Shows devices m.now
  | e :: events =>
      s.Shows devices m.now
        ∧ (∃ told, (s.handle e).published = s.published ++ told
            ∧ ∀ x ∈ told, x.2.Reports m.settled (m.next s e).settled)
        ∧ (s.handle e).Simulates devices (m.next s e) events

theorem Holds.shows (h : s.Holds devices m) (hfree : PrefixFree devices)
    (hself : s.profile.device ∈ devices) : s.Shows devices m.now := by
  rw [← h.now]
  exact shows_of_confined h.space hfree h.confined.now hself

/-- A run keeps to the maps, by one event after the other. -/
theorem Holds.simulates (h : s.Holds devices m) (hfree : PrefixFree devices)
    (hself : s.profile.device ∈ devices) {events : List Event}
    (hpeers : ∀ device ∈ s.peers events, device ∈ devices) (hremote : s.RemoteWhenIdle events) :
    s.Simulates devices m events := by
  induction events generalizing s m with
  | nil => exact h.shows hfree hself
  | cons e events ih =>
      have hturn := s.handle_turn e
      have hnext : (s.handle e).Holds devices (m.next s e) := by
        refine h.turn hfree hself (fun device hdevice => ?_) hremote.1 hturn
        exact hpeers device (List.mem_append_left _ (by simp [hdevice]))
      refine ⟨h.shows hfree hself, h.turn_reports hfree hnext hremote.1 hturn, ?_⟩
      refine ih hnext ?_ (fun device hdevice => ?_) hremote.2
      · rw [hturn.profile]
        exact hself
      · exact hpeers device (List.mem_append_right _ hdevice)

/-- A session over an empty backend holds the maps without entries. -/
theorem holds_empty (hspace : s.profile.options.isPerDevice = true)
    (hempty : s.backend.toTables = {}) (hidle : s.inTransaction = false) : s.Holds devices {} := by
  have hcontents : s.backend.contents = fun _ => none := by
    rw [hempty]
    rfl
  refine ⟨space_of_isPerDevice hspace, .of_idle hidle ?_, ?_, ?_, ?_⟩
  · rw [hcontents]
    exact Contents.confined_none
  · rw [hempty]
    exact Tables.indexed_empty
  · rw [hcontents]
    rfl
  · rw [hidle]
    rfl

/-- **A store that keeps devices apart is a map for each device**, in every run from an empty
backend in which batches of other devices arrive outside transactions only, among devices (this one,
those whose batches are applied, and any others) none of whose ids is a prefix of another. -/
theorem simulates_maps {s₀ : Session} {devices : List String} {events : List Event}
    (hspace : s₀.profile.options.isPerDevice = true) (hempty : s₀.backend.toTables = {})
    (hidle : s₀.inTransaction = false) (hremote : s₀.RemoteWhenIdle events)
    (hself : s₀.profile.device ∈ devices) (hpeers : ∀ device ∈ s₀.peers events, device ∈ devices)
    (hfree : PrefixFree devices) : s₀.Simulates devices {} events :=
  (holds_empty hspace hempty hidle).simulates hfree hself hpeers hremote

/-- Batches of both devices; a transaction that removes the data of the peer and is rolled back; one
that empties the store and is committed; and a batch of the peer at last. -/
theorem simulates_maps_of_two_devices :
    let s₀ := fresh .deviceCollaboration "self"
    let events : List Event := [.register "net" "peer",
      .perform 1 (.putBatch [⟨[1], [10]⟩, ⟨[2], [20]⟩]),
      .perform 2 (.applyRemote "peer" [⟨[1], [30]⟩] [[2]]), .perform 3 .startTransaction,
      .perform 4 (.removeDeviceData "net"), .perform 5 (.put [3] [50]), .perform 6 .rollback,
      .perform 7 .startTransaction, .perform 8 .clear, .perform 9 (.put [1] [40]),
      .perform 10 .commit, .perform 11 (.applyRemote "peer" [⟨[1], [60]⟩] [])]
    s₀.Simulates ["self", "peer"] {} events
      ∧ (s₀.run events).backend.snapshot.map (fun r => (r.device, r.value))
        = [("peer", [60]), ("self", [40])] := by
  intro s₀ events
  refine ⟨simulates_maps (by decide +kernel) (by decide +kernel) (by decide +kernel)
    (by decide +kernel) (by decide +kernel) (by decide +kernel) (by decide +kernel), ?_⟩
  decide +kernel

/-- A network id may be the very word for a key prefix. Text that names it as it stands gives the
entries of all devices, and not those of its device alone. -/
theorem query_of_network_named_keyPrefix :
    let s := (fresh .deviceCollaboration "self").run [.register "^KEY_PREFIX" "peer",
      .perform 1 (.put (Blob.ofString "k") (Blob.ofString "mine")),
      .perform 2 (.applyRemote "peer" [⟨Blob.ofString "p", Blob.ofString "theirs"⟩] [])]
    s.directory.resolve? (Query.unescape "^KEY_PREFIX") = some "peer"
      ∧ (s.query (.text "^DEVICE_ID ^KEY_PREFIX")).1.toOption
        = some [⟨Blob.ofString "p", Blob.ofString "theirs"⟩,
          ⟨Blob.ofString "k", Blob.ofString "mine"⟩] := by
  decide +kernel

end Session

end PeerStore
