import PeerStore.Proofs.Contents
import PeerStore.Proofs.Table

/-!
# The tables of a backend

`Tables.contents` is the look-up of the records. `contents_put`, `contents_remove` and their
versions for lists say what the writes do to it. The device index agrees with the records
(`Tables.Indexed`) in every backend that can arise (`Backend.Reachable.indexed`), and is then
determined by them: `Indexed.ext` says that such tables with equal contents are equal.
-/

set_option autoImplicit false

namespace PeerStore

/-! ## The records -/

namespace Tables

/-- What is stored under each key. -/
def contents (t : Tables) : Contents Stored := t.records.get?

theorem contents_put (t : Tables) (key : Blob) (s : Stored) :
    (t.put key s).contents = Function.update t.contents key (some s) := by
  funext k
  show (t.records.insert key s).get? k = _
  rw [Table.get?_insert, Function.update_apply]
  rfl

theorem contents_remove (t : Tables) (key : Blob) :
    (t.remove key).contents = Function.update t.contents key none := by
  funext k
  rw [Function.update_apply, remove]
  cases hold : t.records.get? key with
  | none =>
      by_cases hk : k = key
      · rw [if_pos hk, hk]
        exact hold
      · rw [if_neg hk]
  | some old =>
      show (t.records.erase key).get? k = _
      rw [Table.get?_erase]
      rfl

theorem contents_putAll_of_not_mem (t : Tables) {rs : List Record} {key : Blob}
    (h : key ∉ rs.map (·.key)) : (t.putAll rs).contents key = t.contents key := by
  induction rs generalizing t with
  | nil => rfl
  | cons r rs ih =>
      rw [List.map_cons, List.mem_cons, not_or] at h
      show ((t.put r.key r.toStored).putAll rs).contents key = _
      rw [ih _ h.2, contents_put, Function.update_of_ne h.1]

theorem contents_putAll_of_mem (t : Tables) {rs : List Record} (h : (rs.map (·.key)).Nodup)
    {r : Record} (hr : r ∈ rs) : (t.putAll rs).contents r.key = some r.toStored := by
  induction rs generalizing t with
  | nil => simp at hr
  | cons r' rs ih =>
      rw [List.map_cons, List.nodup_cons] at h
      show ((t.put r'.key r'.toStored).putAll rs).contents r.key = _
      rcases List.mem_cons.mp hr with rfl | hr
      · rw [contents_putAll_of_not_mem _ h.1, contents_put, Function.update_self]
      · exact ih _ h.2 hr

theorem contents_removeAll (t : Tables) (keys : List Blob) (key : Blob) :
    (t.removeAll keys).contents key = if key ∈ keys then none else t.contents key := by
  induction keys generalizing t with
  | nil => rfl
  | cons k ks ih =>
      show ((t.remove k).removeAll ks).contents key = _
      rw [ih, contents_remove, Function.update_apply]
      by_cases hk : key = k
      · simp [hk]
      · simp [hk]

end Tables

/-! ## The device index -/

namespace DeviceIndex

/-- Whether the index holds a key for a device. -/
def holds (i : DeviceIndex) (device : String) (key : Blob) : Bool :=
  (i.keysOf device).contains key

/-- Every device in the index has a key. -/
def NoneEmpty (i : DeviceIndex) : Prop :=
  ∀ device keys, i.get? device = some keys → keys.isEmpty = false

theorem keysOf_insert (i : DeviceIndex) (device other : String) (keys : KeySet Blob) :
    keysOf (Table.insert i device keys) other
      = if other = device then keys else i.keysOf other := by
  rw [keysOf, Table.get?_insert]
  by_cases h : other = device
  · simp [h]
  · simp [h, keysOf]

theorem keysOf_erase (i : DeviceIndex) (device other : String) :
    keysOf (Table.erase i device) other
      = if other = device then Table.empty else i.keysOf other := by
  rw [keysOf, Table.get?_erase]
  by_cases h : other = device
  · simp [h]
  · simp [h, keysOf]

theorem holds_add (i : DeviceIndex) (device other : String) (key key' : Blob) :
    (i.add device key).holds other key' = true
      ↔ (other = device ∧ key' = key) ∨ i.holds other key' = true := by
  rw [holds, add, keysOf_insert]
  by_cases hd : other = device
  · rw [if_pos hd, KeySet.add, Table.contains, Table.get?_insert]
    by_cases hk : key' = key
    · simp [hd, hk]
    · simp [hd, hk, holds, Table.contains]
  · simp [hd, holds]

theorem holds_remove (i : DeviceIndex) (device other : String) (key key' : Blob) :
    (i.remove device key).holds other key' = true
      ↔ ¬(other = device ∧ key' = key) ∧ i.holds other key' = true := by
  cases hkeys : i.get? device with
  | none =>
      have hempty : i.keysOf device = Table.empty := by rw [keysOf, hkeys]; rfl
      have hrem : i.remove device key = i := by rw [remove, hkeys]
      rw [hrem]
      refine ⟨fun h => ⟨?_, h⟩, And.right⟩
      rintro ⟨rfl, -⟩
      rw [holds, hempty] at h
      simp [Table.contains] at h
  | some keys =>
      have hof : i.keysOf device = keys := by rw [keysOf, hkeys]; rfl
      -- with its last key the device goes, and then it holds as little as the erased set
      have hrest : (i.remove device key).keysOf other
          = if other = device then keys.erase key else i.keysOf other := by
        rw [remove, hkeys]
        show DeviceIndex.keysOf (if (keys.erase key).isEmpty = true then Table.erase i device
          else Table.insert i device (keys.erase key)) other = _
        by_cases hlast : (keys.erase key).isEmpty = true
        · rw [if_pos hlast, keysOf_erase]
          congr 1
          exact Table.ext fun k => ((Table.isEmpty_iff _).mp hlast k).symm
        · rw [if_neg hlast, keysOf_insert]
      rw [holds, hrest]
      by_cases hd : other = device
      · rw [if_pos hd, Table.contains, Table.get?_erase, holds, hd, hof, Table.contains]
        by_cases hk : key' = key
        · simp [hk]
        · simp [hk]
      · simp [hd, holds]

theorem NoneEmpty.add {i : DeviceIndex} (h : i.NoneEmpty) (device : String) (key : Blob) :
    (i.add device key).NoneEmpty := by
  intro other keys hkeys
  rw [DeviceIndex.add, Table.get?_insert] at hkeys
  by_cases hd : other = device
  · rw [if_pos hd] at hkeys
    cases hkeys
    rw [← Bool.not_eq_true, Table.isEmpty_iff]
    intro hnone
    have := hnone key
    rw [KeySet.add, Table.get?_insert_self] at this
    simp at this
  · rw [if_neg hd] at hkeys
    exact h other keys hkeys

theorem NoneEmpty.remove {i : DeviceIndex} (h : i.NoneEmpty) (device : String) (key : Blob) :
    (i.remove device key).NoneEmpty := by
  intro other keys hkeys
  rw [DeviceIndex.remove] at hkeys
  cases hold : i.get? device with
  | none =>
      rw [hold] at hkeys
      exact h other keys hkeys
  | some old =>
      rw [hold] at hkeys
      simp only at hkeys
      split at hkeys
      · rw [Table.get?_erase] at hkeys
        split at hkeys
        · simp at hkeys
        · exact h other keys hkeys
      · rename_i hlast
        rw [Table.get?_insert] at hkeys
        split at hkeys
        · cases hkeys
          simpa using hlast
        · exact h other keys hkeys

end DeviceIndex

namespace Tables

/-- The index holds a key for a device exactly if the device wrote the record of the key, and it
has no device without keys. -/
structure Indexed (t : Tables) : Prop where
  holds_iff : ∀ device key,
    t.byDevice.holds device key = true ↔ (t.contents key).map (·.device) = some device
  noneEmpty : t.byDevice.NoneEmpty

theorem indexed_empty : Indexed {} where
  holds_iff device key := by
    simp [DeviceIndex.holds, DeviceIndex.keysOf, Table.contains, contents]
  noneEmpty device keys h := by simp at h

theorem Indexed.put {t : Tables} (h : t.Indexed) (key : Blob) (s : Stored) :
    (t.put key s).Indexed where
  holds_iff device k := by
    rw [contents_put, Function.update_apply]
    show DeviceIndex.holds (DeviceIndex.add _ s.device key) device k = true ↔ _
    rw [DeviceIndex.holds_add]
    have hold := h.holds_iff device k
    rw [contents] at hold ⊢
    cases hget : t.records.get? key with
    | none =>
        by_cases hk : k = key
        · subst hk
          simp only [hget, Option.map_none, reduceCtorEq, iff_false] at hold
          grind
        · grind
    | some old =>
        by_cases hk : k = key
        · subst hk
          simp only [hget, Option.map_some, Option.some.injEq] at hold
          by_cases hd : old.device = s.device
          · grind
          · grind [DeviceIndex.holds_remove]
        · by_cases hd : old.device = s.device
          · grind
          · grind [DeviceIndex.holds_remove]
  noneEmpty := by
    refine DeviceIndex.NoneEmpty.add ?_ _ _
    split
    · split
      · exact h.noneEmpty
      · exact h.noneEmpty.remove _ _
    · exact h.noneEmpty

theorem Indexed.remove {t : Tables} (h : t.Indexed) (key : Blob) : (t.remove key).Indexed := by
  cases hget : t.records.get? key with
  | none => rwa [Tables.remove, hget]
  | some old =>
      refine ⟨fun device k => ?_, ?_⟩
      · have hrem : (t.remove key).byDevice = t.byDevice.remove old.device key := by
          rw [Tables.remove, hget]
        have hold := h.holds_iff device k
        rw [contents_remove, Function.update_apply, hrem, DeviceIndex.holds_remove]
        by_cases hk : k = key
        · have : t.contents k = some old := by rw [hk]; exact hget
          simp only [this, Option.map_some, Option.some.injEq] at hold
          grind
        · simp [hk, hold]
      · rw [Tables.remove, hget]
        exact h.noneEmpty.remove _ _

theorem Indexed.putAll {t : Tables} (h : t.Indexed) (rs : List Record) :
    (t.putAll rs).Indexed := by
  induction rs generalizing t with
  | nil => exact h
  | cons r rs ih => exact ih (h.put r.key r.toStored)

theorem Indexed.removeAll {t : Tables} (h : t.Indexed) (keys : List Blob) :
    (t.removeAll keys).Indexed := by
  induction keys generalizing t with
  | nil => exact h
  | cons key keys ih => exact ih (h.remove key)

/-- **The records determine the device index.** -/
theorem Indexed.ext {t u : Tables} (ht : t.Indexed) (hu : u.Indexed)
    (h : t.contents = u.contents) : t = u := by
  have hholds : ∀ device key, t.byDevice.holds device key = u.byDevice.holds device key := by
    intro device key
    rw [Bool.eq_iff_iff, ht.holds_iff, hu.holds_iff, h]
  have hkeys : ∀ device, t.byDevice.keysOf device = u.byDevice.keysOf device := by
    intro device
    refine Table.ext fun key => ?_
    have := hholds device key
    rw [DeviceIndex.holds, DeviceIndex.holds, Table.contains, Table.contains] at this
    cases hl : (t.byDevice.keysOf device).get? key <;>
      cases hr : (u.byDevice.keysOf device).get? key <;> simp_all
  have hrecords : t.records = u.records := Table.ext fun key => congrFun h key
  have hindex : t.byDevice = u.byDevice := by
    refine Table.ext fun device => ?_
    have := hkeys device
    rw [DeviceIndex.keysOf, DeviceIndex.keysOf] at this
    -- a device with keys in one index has the same keys, so some, in the other
    have hne : Table.isEmpty (Table.empty : KeySet Blob) = true := rfl
    cases hl : t.byDevice.get? device with
    | none =>
        cases hr : u.byDevice.get? device with
        | none => rfl
        | some keys =>
            have hkeys := hu.noneEmpty device keys hr
            rw [hl, hr] at this
            rw [← show Table.empty = keys from this, hne] at hkeys
            simp at hkeys
    | some keys =>
        cases hr : u.byDevice.get? device with
        | none =>
            have hkeys := ht.noneEmpty device keys hl
            rw [hl, hr] at this
            rw [show keys = Table.empty from this, hne] at hkeys
            simp at hkeys
        | some keys' =>
            rw [hl, hr] at this
            exact congrArg some this
  cases t
  cases u
  simp only at hrecords hindex
  rw [hrecords, hindex]

end Tables

/-! ## Backends that can arise -/

namespace Backend

/-- The backends that can arise from an empty one by its operations, while writes begin and cease
to fail. -/
inductive Reachable : Backend → Prop where
  | empty : Reachable {}
  | apply {b b' : Backend} {puts : List Entry} {deletes : List Blob} {time : Int}
      {device : String} : Reachable b → b.apply puts deletes time device = .ok b' → Reachable b'
  | restore {b b' : Backend} {records : List Record} {deletes : List Blob} :
      Reachable b → b.restore records deletes = .ok b' → Reachable b'
  | clear {b b' : Backend} {removed : List Record} :
      Reachable b → b.clear = .ok (removed, b') → Reachable b'
  | fail {b : Backend} (on : Bool) : Reachable b → Reachable { b with failing := on }

/-- A write that succeeds was not made to fail, and does what it should. -/
theorem write_eq_ok_iff {b b' : Backend} {f : Tables → Tables} :
    b.write f = .ok b' ↔ b.failing = false ∧ b' = { b with toTables := f b.toTables } := by
  rw [write]
  cases hb : b.failing with
  | true => simp
  | false => simp [eq_comm]

theorem clear_eq_ok_iff {b b' : Backend} {removed : List Record} :
    b.clear = .ok (removed, b')
      ↔ b.failing = false ∧ removed = b.snapshot ∧ b' = { b with toTables := {} } := by
  rw [clear, write]
  cases hb : b.failing with
  | true => simp [Except.map]
  | false => simp [Except.map, eq_comm]

theorem Reachable.indexed {b : Backend} (h : b.Reachable) : b.toTables.Indexed := by
  induction h with
  | empty => exact Tables.indexed_empty
  | apply _ hok ih =>
      obtain ⟨-, rfl⟩ := write_eq_ok_iff.mp hok
      exact (ih.putAll _).removeAll _
  | restore _ hok ih =>
      obtain ⟨-, rfl⟩ := write_eq_ok_iff.mp hok
      exact (ih.putAll _).removeAll _
  | clear _ hok _ =>
      obtain ⟨-, -, rfl⟩ := clear_eq_ok_iff.mp hok
      exact Tables.indexed_empty
  | fail _ _ ih => exact ih

end Backend

end PeerStore
