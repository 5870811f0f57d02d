import PeerStore.Proofs.KeySpace
import PeerStore.Proofs.Store.Told

/-!
# A map for each device

Users see a store that keeps devices apart as a `Family`: one map for each device, from user keys to
values. `Family.after` says what each call means for the maps, and `Maps.after` what a transaction
means for them. `Contents.family` reads the maps off the stored records. Among devices none of whose
ids is a prefix of another, a batch of a device is a write to its map alone (**`family_writeAll`**),
and a notice in user keys tells of changes in the maps (**`Retells.reports`**).
-/

set_option autoImplicit false

namespace PeerStore

/-! ## Maps and calls -/

/-- A map from user keys to values for each device. -/
abbrev Family := String → Contents Blob

namespace Family

/-- The maps without entries. -/
def empty : Family := fun _ _ => none

/-- Makes writes in the map of one device. -/
def write (m : Family) (device : String) (writes : List Write) : Family :=
  Function.update m device ((m device).valuesAfter writes)

/-- What a call that succeeds does to the maps. Calls of this device write in its own map. -/
def after (m : Family) (self : String) (directory : Directory) : Operation → Family
  | .put key value => m.write self [.put key value]
  | .putBatch es => m.write self (es.map fun e => .put e.key e.value)
  | .delete key => m.write self [.remove key]
  | .deleteBatch keys => m.write self (keys.map .remove)
  | .applyRemote device puts deletes =>
      m.write device (puts.map (fun e => .put e.key e.value) ++ deletes.map .remove)
  | .removeDeviceData network =>
      match directory.resolve? network with
      | some device => Function.update m device fun _ => none
      | none => m
  | .clear => empty
  | _ => m

end Family

/-- The maps now and, while a transaction is active, those at its start. -/
structure Maps where
  now : Family := Family.empty
  start : Option Family := none

namespace Maps

/-- The maps without what an active transaction has done. -/
def settled (m : Maps) : Family := m.start.getD m.now

/-- What a call that succeeds does to the maps, inside a transaction and outside. -/
def after (m : Maps) (self : String) (directory : Directory) : Operation → Maps
  | .startTransaction => { m with start := some m.now }
  | .commit => { m with start := none }
  | .rollback => { now := m.settled, start := none }
  | op => { m with now := m.now.after self directory op }

/-- The maps after an event. A call that fails does nothing to them. -/
def next (m : Maps) (s : Session) : Event → Maps
  | .perform now op =>
      if (s.perform now op).1.isOk then m.after s.profile.device s.directory op else m
  | _ => m

/-- A call that changes no entries and no transaction leaves the maps. -/
theorem after_of_not_isChange {op : Operation} (h : op.isChange = false) (m : Maps) (self : String)
    (directory : Directory) : m.after self directory op = m := by
  cases op with
  | put | putBatch | delete | deleteBatch | clear | removeDeviceData | applyRemote
  | startTransaction | commit | rollback => exact absurd h (by simp [Operation.isChange])
  | _ => rfl

end Maps

/-- The entries of a map under a prefix, in ascending order of their keys. -/
structure Contents.Lists (c : Contents Blob) (pfx : Blob) (es : List Entry) : Prop where
  ascending : es.Pairwise fun a b => Blob.before a.key b.key = true
  mem_iff : ∀ e, e ∈ es ↔ pfx <+: e.key ∧ c e.key = some e.value

/-- A notice that tells how maps changed: what came and what went is told exactly, what is told as
written over was and is present, and every other value that changed is told so. -/
structure Notice.Reports (n : Notice) (before after : Family) : Prop where
  inserts : ∀ e, e ∈ n.inserts ↔
    ∃ device, before device e.key = none ∧ after device e.key = some e.value
  updates : ∀ e ∈ n.updates,
    ∃ device, before device e.key ≠ none ∧ after device e.key = some e.value
  changed : ∀ device key value, before device key ≠ none → after device key = some value →
    before device key ≠ some value → ⟨key, value⟩ ∈ n.updates
  deletes : ∀ e, e ∈ n.deletes ↔
    ∃ device, before device e.key = some e.value ∧ after device e.key = none

/-! ## The maps of stored records -/

/-- Whether a stored key is in the form of a device, and the device one of a list. -/
def Among (devices : List String) (device : String) (key : Blob) : Prop :=
  device ∈ devices ∧ ∃ userKey, key = Blob.ofString device ++ userKey

namespace Contents

/-- The maps that are read off stored records: the value of a device under a user key is that of the
record under the stored form, if the record is of the device. -/
def family (c : Contents Stored) : Family := fun device key =>
  ((c (Blob.ofString device ++ key)).filter (·.device == device)).map (·.value)

theorem Confined.mono {own own' : String → Blob → Prop} {c : Contents Stored} (h : c.Confined own)
    (himp : ∀ device key, own device key → own' device key) : c.Confined own' :=
  fun key r hr => himp r.device key (h key r hr)

variable {c d : Contents Stored} {devices : List String} {device : String} {key : Blob}

theorem family_eq_some_iff {value : Blob} : c.family device key = some value
    ↔ ∃ r, c (Blob.ofString device ++ key) = some r ∧ r.device = device ∧ r.value = value := by
  rw [family, Option.map_eq_some_iff]
  constructor
  · rintro ⟨r, hr, hvalue⟩
    obtain ⟨hr, hdevice⟩ := Option.filter_eq_some_iff.mp hr
    exact ⟨r, hr, by simpa using hdevice, hvalue⟩
  · rintro ⟨r, hr, hdevice, hvalue⟩
    exact ⟨r, Option.filter_eq_some_iff.mpr ⟨hr, by simpa using hdevice⟩, hvalue⟩

/-- A record that is under a stored form of one of the devices is of this device. -/
theorem Confined.device_eq (hc : c.Confined (Among devices)) (hfree : PrefixFree devices)
    (hdevice : device ∈ devices) {r : Stored} (hr : c (Blob.ofString device ++ key) = some r) :
    r.device = device := by
  obtain ⟨hmem, userKey, hkey⟩ := hc _ r hr
  exact (hfree.append_inj hdevice hmem hkey).1.symm

/-- The map of one of the devices is what stands under its stored keys. -/
theorem Confined.family_eq (hc : c.Confined (Among devices)) (hfree : PrefixFree devices)
    (hdevice : device ∈ devices) (key : Blob) :
    c.family device key = c.values (Blob.ofString device ++ key) := by
  rw [family, values]
  cases hr : c (Blob.ofString device ++ key) with
  | none => rfl
  | some r =>
      rw [Option.filter_some, if_pos (by simpa using hc.device_eq hfree hdevice hr)]

/-- The maps of all other devices are empty. -/
theorem Confined.family_of_not_mem (hc : c.Confined (Among devices)) (hdevice : device ∉ devices) :
    c.family device = fun _ => none := by
  funext key
  cases hvalue : c.family device key with
  | none => rfl
  | some value =>
      obtain ⟨r, hr, rfl, -⟩ := family_eq_some_iff.mp hvalue
      exact absurd (hc _ r hr).1 hdevice

/-- Only the devices have entries. -/
theorem Confined.mem_of_family (hc : c.Confined (Among devices)) {value : Blob}
    (hvalue : c.family device key = some value) : device ∈ devices := by
  by_contra hdevice
  rw [hc.family_of_not_mem hdevice] at hvalue
  exact absurd hvalue (by simp)

/-- Each record is an entry of the map of its device. -/
theorem Confined.exists_family (hc : c.Confined (Among devices)) {r : Stored}
    (hr : c key = some r) : ∃ userKey, key = Blob.ofString r.device ++ userKey
      ∧ c.family r.device userKey = some r.value := by
  obtain ⟨-, userKey, rfl⟩ := hc key r hr
  exact ⟨userKey, rfl, family_eq_some_iff.mpr ⟨r, hr, rfl, rfl⟩⟩

/-! ## Writing -/

/-- Writes under keys that are put into another form, seen through this form. -/
theorem writeAll_map_key {α : Type} {stamp : Blob → α} {f : Blob → Blob}
    (hf : Function.Injective f) (c : Contents α) (writes : List Write) (key : Blob) :
    c.writeAll stamp (writes.map fun w => { w with key := f w.key }) (f key)
      = writeAll stamp (fun key => c (f key)) writes key := by
  induction writes generalizing c with
  | nil => rfl
  | cons w ws ih =>
      show writeAll stamp (write stamp c { w with key := f w.key })
          (ws.map fun w => { w with key := f w.key }) (f key)
        = writeAll stamp (write stamp (fun key => c (f key)) w) ws key
      rw [ih]
      refine writeAll_congr ws ?_
      by_cases hkey : key = w.key
      · rw [hkey]
        have hstored : write stamp c { w with key := f w.key } (f w.key) = w.value.map stamp :=
          write_self c { w with key := f w.key }
        rw [hstored, write_self]
      · rw [write_of_ne _ hkey]
        exact write_of_ne c (w := { w with key := f w.key }) fun heq => hkey (hf heq)

/-- The removal of keys, and of nothing else. -/
theorem writeAll_map_remove {α : Type} {stamp : Blob → α} (c : Contents α) (keys : List Blob)
    (key : Blob) :
    c.writeAll stamp (keys.map .remove) key = if key ∈ keys then none else c key := by
  induction keys generalizing c with
  | nil => rfl
  | cons k ks ih =>
      show writeAll stamp (write stamp c (.remove k)) (ks.map .remove) key = _
      rw [ih]
      by_cases hmem : key ∈ ks
      · rw [if_pos hmem, if_pos (List.mem_cons_of_mem k hmem)]
      · rw [if_neg hmem]
        by_cases hkey : key = k
        · rw [if_pos (hkey ▸ List.mem_cons_self), hkey]
          exact write_self c (.remove k)
        · rw [if_neg (by simp [hkey, hmem])]
          exact write_of_ne c (w := .remove k) hkey

/-- The removal of every key that holds a record leaves nothing. -/
theorem writeAll_remove_snapshot (b : Backend) {stamp : Blob → Stored} :
    b.contents.writeAll stamp (b.snapshot.map fun r => .remove r.key) = fun _ => none := by
  have hkeys : (b.snapshot.map fun r => Write.remove r.key)
      = (b.snapshot.map (·.key)).map .remove := by
    rw [List.map_map]
    rfl
  funext key
  rw [hkeys, writeAll_map_remove]
  split
  · rfl
  · exact Backend.contents_of_not_mem_snapshot ‹_›

/-- **A batch of a device is a write to its map, and to no other.** -/
theorem family_writeAll (hc : c.Confined (Among devices)) (hfree : PrefixFree devices)
    (hdevice : device ∈ devices) (time : Int) (writes : List Write) :
    (c.writeAll (fun value => ⟨value, time, device⟩)
        (writes.map fun w => { w with key := Blob.ofString device ++ w.key })).family
      = c.family.write device writes := by
  let f : Blob → Blob := fun key => Blob.ofString device ++ key
  have hf : Function.Injective f := fun _ _ heq => List.append_cancel_left heq
  let after : Contents Stored := c.writeAll (fun value => ⟨value, time, device⟩)
    (writes.map fun w => { w with key := f w.key })
  have hafter : after.Confined (Among devices) := by
    refine hc.writeAll fun w hw _ => ?_
    obtain ⟨w', -, rfl⟩ := List.mem_map.mp hw
    exact ⟨hdevice, w'.key, rfl⟩
  show after.family = _
  funext other key
  by_cases hother : other = device
  · -- the writes are made under the stored forms of the keys
    subst hother
    rw [Family.write, Function.update_self, hafter.family_eq hfree hdevice]
    calc after.values (f key)
        = (writeAll (fun value => ⟨value, time, other⟩) (fun key => c (f key)) writes key).map
            (·.value) := congrArg _ (writeAll_map_key hf c writes key)
      _ = writeAll id (fun key => c.values (f key)) writes key := map_writeAll _ _ _ _
      _ = (c.family other).valuesAfter writes key :=
          writeAll_congr writes (hc.family_eq hfree hdevice key).symm
  · rw [Family.write, Function.update_of_ne hother]
    by_cases hmem : other ∈ devices
    · rw [hafter.family_eq hfree hmem, hc.family_eq hfree hmem, values, values]
      congr 1
      refine writeAll_of_not_mem c fun htouched => ?_
      rw [List.map_map] at htouched
      obtain ⟨w, -, hkey⟩ := List.mem_map.mp htouched
      exact hother (hfree.append_inj hdevice hmem hkey).1.symm
    · rw [hafter.family_of_not_mem hmem, hc.family_of_not_mem hmem]

/-- The removal of all that a device wrote last empties its map, and no other. -/
theorem family_writeAll_remove {stamp : Blob → Stored} {keys : List Blob}
    (hkeys : ∀ key, key ∈ keys ↔ (c key).map (·.device) = some device) :
    (c.writeAll stamp (keys.map .remove)).family
      = Function.update c.family device fun _ => none := by
  funext other key
  have hread : c.writeAll stamp (keys.map .remove) (Blob.ofString other ++ key)
      = if (c (Blob.ofString other ++ key)).map (·.device) = some device then none
        else c (Blob.ofString other ++ key) := by
    rw [writeAll_map_remove]
    simp only [hkeys]
  rw [family, hread]
  cases hr : c (Blob.ofString other ++ key) with
  | none =>
      by_cases hother : other = device
      · simp [hother]
      · simp [Function.update_of_ne hother, family, hr]
  | some r =>
      by_cases hother : other = device
      · subst hother
        rw [Function.update_self]
        by_cases hdevice : r.device = other
        · simp [hdevice]
        · simp [hdevice]
      · rw [Function.update_of_ne hother, family, hr]
        by_cases hdevice : r.device = device
        · have hne : ¬device = other := fun heq => hother heq.symm
          simp [hdevice, hne]
        · simp [hdevice]

end Contents

/-! ## Notices -/

namespace Notice.Retells

variable {self : String} {n stored : Notice} {owner : Blob → String}
  {before after : Contents Stored} {devices : List String}

/-- Whatever record it has before or after, a stored key is told in the form of the device of this
record, which is one of the devices. -/
theorem exists_userKey (h : n.Retells (.perDevice self) stored owner before after)
    (hbefore : before.Confined (Among devices)) (hafter : after.Confined (Among devices))
    {key : Blob} (hkey : key ∈ stored.keys) : ∃ device ∈ devices, ∃ userKey,
      key = Blob.ofString device ++ userKey
        ∧ (KeySpace.perDevice self).userKey (owner key) key = userKey := by
  obtain ⟨r, hr, howner⟩ := h.owner key hkey
  have hamong : Among devices r.device key := by
    rcases hr with hr | hr
    · exact hbefore key r hr
    · exact hafter key r hr
  obtain ⟨hmem, userKey, rfl⟩ := hamong
  refine ⟨r.device, hmem, userKey, rfl, ?_⟩
  rw [howner]
  exact (KeySpace.perDevice self).userKey_remoteKey r.device userKey

/-- What is told of some stored keys is told of them in the forms of the devices. -/
theorem mem_map_iff (h : n.Retells (.perDevice self) stored owner before after)
    (hfree : PrefixFree devices) (hbefore : before.Confined (Among devices))
    (hafter : after.Confined (Among devices)) {es : List Entry} (hes : es ⊆ stored.entries)
    {e : Entry} :
    e ∈ es.map (fun e => ⟨(KeySpace.perDevice self).userKey (owner e.key) e.key, e.value⟩)
      ↔ ∃ device ∈ devices, (⟨Blob.ofString device ++ e.key, e.value⟩ : Entry) ∈ es := by
  have hkeys {told : Entry} (htold : told ∈ es) : told.key ∈ stored.keys :=
    List.mem_map.mpr ⟨told, hes htold, rfl⟩
  rw [List.mem_map]
  constructor
  · rintro ⟨told, htold, rfl⟩
    obtain ⟨device, hdevice, userKey, hkey, huser⟩ :=
      h.exists_userKey hbefore hafter (hkeys htold)
    refine ⟨device, hdevice, ?_⟩
    rw [huser, ← hkey]
    exact htold
  · rintro ⟨device, hdevice, htold⟩
    obtain ⟨device', hdevice', userKey, hkey, huser⟩ :=
      h.exists_userKey hbefore hafter (hkeys htold)
    obtain ⟨-, rfl⟩ := hfree.append_inj hdevice hdevice' hkey
    exact ⟨_, htold, by rw [huser]⟩

/-- **A notice in user keys of how records changed tells how the maps changed.** -/
theorem reports (h : n.Retells (.perDevice self) stored owner before after)
    (hfree : PrefixFree devices) (hbefore : before.Confined (Among devices))
    (hafter : after.Confined (Among devices)) : n.Reports before.family after.family := by
  obtain ⟨touched, htells, hrest⟩ := h.tells
  have htouched {key : Blob} (hchanged : before.values key ≠ after.values key) :
      key ∈ touched := by
    by_contra hkey
    refine hchanged ?_
    rw [Contents.values, Contents.values, hrest key hkey]
  have hinserts : stored.inserts ⊆ stored.entries := fun e he =>
    List.mem_append_left _ (List.mem_append_left _ he)
  have hupdates : stored.updates ⊆ stored.entries := fun e he =>
    List.mem_append_left _ (List.mem_append_right _ he)
  have hdeletes : stored.deletes ⊆ stored.entries := fun e he => List.mem_append_right _ he
  refine ⟨fun e => ?_, fun e he => ?_, fun device key value hpresent hsome hchanged => ?_,
    fun e => ?_⟩
  · rw [h.inserts, h.mem_map_iff hfree hbefore hafter hinserts]
    constructor
    · rintro ⟨device, hdevice, he⟩
      obtain ⟨-, hnone, hsome⟩ := htells.mem_inserts.mp he
      refine ⟨device, ?_, ?_⟩
      · rw [hbefore.family_eq hfree hdevice, hnone]
      · rw [hafter.family_eq hfree hdevice, hsome]
    · rintro ⟨device, hnone, hsome⟩
      have hdevice := hafter.mem_of_family hsome
      rw [hbefore.family_eq hfree hdevice] at hnone
      rw [hafter.family_eq hfree hdevice] at hsome
      have hchanged : before.values (Blob.ofString device ++ e.key)
          ≠ after.values (Blob.ofString device ++ e.key) := by simp [hnone, hsome]
      exact ⟨device, hdevice, htells.mem_inserts.mpr ⟨htouched hchanged, hnone, hsome⟩⟩
  · rw [h.updates, h.mem_map_iff hfree hbefore hafter hupdates] at he
    obtain ⟨device, hdevice, he⟩ := he
    obtain ⟨-, hpresent, hsome⟩ := htells.mem_updates.mp he
    refine ⟨device, ?_, ?_⟩
    · rw [hbefore.family_eq hfree hdevice]
      exact hpresent
    · rw [hafter.family_eq hfree hdevice, hsome]
  · have hdevice := hafter.mem_of_family hsome
    rw [hbefore.family_eq hfree hdevice] at hpresent hchanged
    rw [hafter.family_eq hfree hdevice] at hsome
    have hkey : Blob.ofString device ++ key ∈ touched := htouched fun heq =>
      hchanged (heq.trans hsome)
    rw [h.updates, h.mem_map_iff hfree hbefore hafter hupdates]
    exact ⟨device, hdevice, htells.mem_updates.mpr ⟨hkey, hpresent, hsome⟩⟩
  · rw [h.deletes, h.mem_map_iff hfree hbefore hafter hdeletes]
    constructor
    · rintro ⟨device, hdevice, he⟩
      obtain ⟨-, hsome, hnone⟩ := htells.mem_deletes.mp he
      refine ⟨device, ?_, ?_⟩
      · rw [hbefore.family_eq hfree hdevice, hsome]
      · rw [hafter.family_eq hfree hdevice, hnone]
    · rintro ⟨device, hsome, hnone⟩
      have hdevice := hbefore.mem_of_family hsome
      rw [hbefore.family_eq hfree hdevice] at hsome
      rw [hafter.family_eq hfree hdevice] at hnone
      have hchanged : before.values (Blob.ofString device ++ e.key)
          ≠ after.values (Blob.ofString device ++ e.key) := by simp [hnone, hsome]
      exact ⟨device, hdevice, htells.mem_deletes.mpr ⟨htouched hchanged, hsome, hnone⟩⟩

end Notice.Retells

end PeerStore
