import Mathlib.Data.List.Sort
import PeerStore.Proofs.Backend.Tables

/-!
# Snapshots and scans

A backend gives all of its records, or those under a key prefix, in ascending key order. A scan
passes the records once: it begins at the first key that is not before the prefix and ends at the
first that does not begin with it. It misses nothing, because the keys with a prefix stand together
(`Blob.startsWith_of_between`), so a scan is a filtered snapshot (**`scanPrefix_eq_filter`**). What
it gives is settled by the records under the prefix alone (`scanPrefix_congr`).
-/

set_option autoImplicit false

namespace PeerStore

/-! ## Keys with a prefix -/

namespace Blob

theorem startsWith_iff {b pfx : Blob} : b.startsWith pfx = true ↔ pfx <+: b :=
  List.isPrefixOf_iff_prefix

/-- Keys of one prefix are ordered as what stands behind it. -/
theorem before_append (pfx a b : Blob) : before (pfx ++ a) (pfx ++ b) = before a b := by
  induction pfx with
  | nil => rfl
  | cons x xs ih =>
      rw [List.cons_append, List.cons_append, before]
      simpa using ih

/-- Lists in ascending order of their keys are equal if they have the same members. -/
theorem eq_of_ascending {α : Type} (key : α → Blob) {l l' : List α}
    (h : l.Pairwise fun a b => before (key a) (key b) = true)
    (h' : l'.Pairwise fun a b => before (key a) (key b) = true) (hmem : ∀ a, a ∈ l ↔ a ∈ l') :
    l = l' := by
  have hirrefl (a : α) : ¬before (key a) (key a) = true := by
    rw [before_irrefl]
    exact Bool.false_ne_true
  have : Std.Irrefl fun a b : α => before (key a) (key b) = true := ⟨hirrefl⟩
  have : Std.Antisymm fun a b : α => before (key a) (key b) = true :=
    ⟨fun a b hab hba => absurd (before_trans hab hba) (hirrefl a)⟩
  exact h.eq_of_mem_iff h' hmem

/-- A key is never before its own prefix. -/
theorem not_before_of_startsWith {b pfx : Blob} (h : b.startsWith pfx = true) :
    before b pfx = false := by
  obtain ⟨rest, rfl⟩ := startsWith_iff.mp h
  have hrest : before (pfx ++ rest) (pfx ++ []) = before rest [] := before_append pfx rest []
  rw [List.append_nil] at hrest
  rw [hrest]
  cases rest <;> rfl

/-- **The keys with a prefix stand together**: what lies between the prefix and a key that begins
with it begins with it as well. -/
theorem startsWith_of_between {a b pfx : Blob} (hlow : before a pfx = false)
    (hhigh : before a b = true) (hb : b.startsWith pfx = true) : a.startsWith pfx = true := by
  rw [startsWith_iff] at hb ⊢
  induction pfx generalizing a b with
  | nil => exact List.nil_prefix
  | cons p ps ih =>
      obtain ⟨rest, rfl⟩ := hb
      cases a with
      | nil => exact absurd hlow (by simp [before])
      | cons x xs =>
          rw [List.cons_append, before] at hhigh
          rw [before] at hlow
          -- the first byte is neither below nor above that of the prefix
          have hnotBelow : ¬x < p := fun hlt => by simp [hlt] at hlow
          have hnotAbove : ¬p < x := fun hlt => by
            rw [if_neg hnotBelow, if_pos hlt] at hhigh
            exact absurd hhigh Bool.false_ne_true
          have hfirst : x = p := by
            rw [UInt8.lt_iff_toNat_lt] at hnotBelow hnotAbove
            exact UInt8.toNat_inj.mp (by omega)
          rw [if_neg hnotBelow, if_neg hnotAbove] at hlow hhigh
          rw [hfirst, List.cons_prefix_cons]
          exact ⟨rfl, ih hlow hhigh (List.prefix_append ps rest)⟩

end Blob

/-! ## A scan of ascending entries -/

namespace Entries

variable {α : Type}

/-- Once the keys with a prefix have begun, they end where the first other key stands. -/
theorem takeWhile_startsWith {es : List (Blob × α)} {pfx : Blob} (h : Ascending es)
    (hlow : ∀ e ∈ es, Blob.before e.1 pfx = false) :
    (es.takeWhile fun e => e.1.startsWith pfx) = es.filter fun e => e.1.startsWith pfx := by
  induction es with
  | nil => rfl
  | cons e es ih =>
      obtain ⟨hfirst, hrest⟩ := List.pairwise_cons.mp h
      have hlow' : ∀ e' ∈ es, Blob.before e'.1 pfx = false :=
        fun e' he' => hlow e' (List.mem_cons_of_mem _ he')
      by_cases he : e.1.startsWith pfx = true
      · rw [List.filter_cons, if_pos he, ← ih hrest hlow', List.takeWhile_cons, if_pos he]
      · rw [List.filter_cons, if_neg he, List.takeWhile_cons, if_neg he]
        -- a later key with the prefix would give it to this one
        symm
        rw [List.filter_eq_nil_iff]
        intro later hlater hstarts
        exact he (Blob.startsWith_of_between (hlow e List.mem_cons_self) (hfirst later hlater)
          hstarts)

/-- Skipping to the prefix and going on while keys begin with it finds every such key. -/
theorem scan_eq_filter {es : List (Blob × α)} (pfx : Blob) (h : Ascending es) :
    ((es.dropWhile fun e => Blob.before e.1 pfx).takeWhile fun e => e.1.startsWith pfx)
      = es.filter fun e => e.1.startsWith pfx := by
  induction es with
  | nil => rfl
  | cons e es ih =>
      obtain ⟨hfirst, hrest⟩ := List.pairwise_cons.mp h
      by_cases he : Blob.before e.1 pfx = true
      · have hskip : ¬e.1.startsWith pfx = true := fun hstarts => by
          rw [Blob.not_before_of_startsWith hstarts] at he
          exact absurd he Bool.false_ne_true
        rw [List.filter_cons, if_neg hskip, ← ih hrest, List.dropWhile_cons, if_pos he]
      · rw [List.dropWhile_cons, if_neg he]
        refine takeWhile_startsWith h fun e' he' => ?_
        rcases List.mem_cons.mp he' with rfl | he'
        · exact Bool.eq_false_iff.mpr he
        -- a key behind one that is not before the prefix is not before it either
        · rw [Bool.eq_false_iff]
          exact fun hlow => he (KeyOrder.trans (hfirst e' he') hlow)

end Entries

/-! ## Snapshots -/

namespace Backend

theorem mem_snapshot_iff {b : Backend} {r : Record} :
    r ∈ b.snapshot ↔ b.get? r.key = some r := by
  rw [snapshot, List.mem_map, get?, Option.map_eq_some_iff]
  constructor
  · rintro ⟨⟨key, stored⟩, hmem, rfl⟩
    exact ⟨stored, (Table.mem_toList_iff ..).mp hmem, rfl⟩
  · rintro ⟨stored, hstored, hr⟩
    exact ⟨(r.key, stored), (Table.mem_toList_iff ..).mpr hstored, hr⟩

theorem ascending_snapshot (b : Backend) :
    b.snapshot.Pairwise fun r r' => Blob.before r.key r'.key = true := by
  rw [snapshot, List.pairwise_map]
  exact b.records.ascending

theorem nodup_snapshot (b : Backend) : (b.snapshot.map (·.key)).Nodup := by
  rw [List.Nodup, List.pairwise_map]
  exact b.ascending_snapshot.imp fun hbefore => KeyOrder.ne_of_before hbefore

/-- A record that is found under a key has this key. -/
theorem key_of_get? {b : Backend} {key : Blob} {r : Record} (h : b.get? key = some r) :
    r.key = key := by
  obtain ⟨stored, -, rfl⟩ := Option.map_eq_some_iff.mp h
  rfl

/-- The keys of a snapshot are those that hold a record. -/
theorem mem_map_key_snapshot {b : Backend} {key : Blob} :
    key ∈ b.snapshot.map (·.key) ↔ b.get? key ≠ none := by
  rw [List.mem_map]
  constructor
  · rintro ⟨r, hr, rfl⟩
    rw [mem_snapshot_iff.mp hr]
    simp
  · intro hpresent
    obtain ⟨r, hr⟩ := Option.ne_none_iff_exists'.mp hpresent
    have hkey := key_of_get? hr
    exact ⟨r, mem_snapshot_iff.mpr (hkey.symm ▸ hr), hkey⟩

theorem contents_of_not_mem_snapshot {b : Backend} {key : Blob}
    (h : key ∉ b.snapshot.map (·.key)) : b.contents key = none := by
  rw [mem_map_key_snapshot, not_ne_iff] at h
  exact Option.map_eq_none_iff.mp h

/-- The index of a backend gives the keys whose record a device wrote. -/
theorem mem_keysFromDevice_iff {b : Backend} (h : b.Indexed) {device : String} {key : Blob} :
    key ∈ b.keysFromDevice device ↔ (b.contents key).map (·.device) = some device := by
  rw [← h.holds_iff, DeviceIndex.holds, Table.contains, Option.isSome_iff_exists, keysFromDevice,
    Table.keys, List.mem_map]
  constructor
  · rintro ⟨entry, hentry, rfl⟩
    exact ⟨entry.2, (Table.mem_toList_iff ..).mp hentry⟩
  · rintro ⟨value, hvalue⟩
    exact ⟨(key, value), (Table.mem_toList_iff ..).mpr hvalue, rfl⟩

/-! ## Scans -/

/-- **A scan gives exactly the records whose key begins with the prefix.** -/
theorem scanPrefix_eq_filter (b : Backend) (pfx : Blob) :
    b.scanPrefix pfx = b.snapshot.filter fun r => r.key.startsWith pfx := by
  rw [scanPrefix, Entries.scan_eq_filter pfx b.records.ascending, snapshot, List.filter_map]
  rfl

theorem mem_scanPrefix_iff {b : Backend} {pfx : Blob} {r : Record} :
    r ∈ b.scanPrefix pfx ↔ b.get? r.key = some r ∧ pfx <+: r.key := by
  rw [scanPrefix_eq_filter, List.mem_filter, mem_snapshot_iff, Blob.startsWith_iff]

theorem ascending_scanPrefix (b : Backend) (pfx : Blob) :
    (b.scanPrefix pfx).Pairwise fun r r' => Blob.before r.key r'.key = true := by
  rw [scanPrefix_eq_filter]
  exact b.ascending_snapshot.filter _

theorem nodup_scanPrefix (b : Backend) (pfx : Blob) : ((b.scanPrefix pfx).map (·.key)).Nodup := by
  rw [List.Nodup, List.pairwise_map]
  exact (b.ascending_scanPrefix pfx).imp fun hbefore => KeyOrder.ne_of_before hbefore

/-- A key is scanned exactly if it begins with the prefix and holds a record. -/
theorem mem_map_key_scanPrefix {b : Backend} {pfx key : Blob} :
    key ∈ (b.scanPrefix pfx).map (·.key) ↔ pfx <+: key ∧ b.get? key ≠ none := by
  have hscan : (b.scanPrefix pfx).map (·.key)
      = (b.snapshot.map (·.key)).filter fun key => key.startsWith pfx := by
    rw [scanPrefix_eq_filter, List.filter_map]
    rfl
  rw [hscan, List.mem_filter, mem_map_key_snapshot, Blob.startsWith_iff, and_comm]

/-- What a scan gives depends on the records under the prefix alone. -/
theorem scanPrefix_congr {b b' : Backend} {pfx : Blob}
    (h : ∀ key, pfx <+: key → b.get? key = b'.get? key) : b.scanPrefix pfx = b'.scanPrefix pfx := by
  refine Blob.eq_of_ascending (·.key) (b.ascending_scanPrefix pfx) (b'.ascending_scanPrefix pfx)
    fun r => ?_
  rw [mem_scanPrefix_iff, mem_scanPrefix_iff]
  constructor
  · rintro ⟨hget, hpfx⟩
    exact ⟨h r.key hpfx ▸ hget, hpfx⟩
  · rintro ⟨hget, hpfx⟩
    exact ⟨(h r.key hpfx).symm ▸ hget, hpfx⟩

/-- A key that comes to a backend makes every scan longer that it belongs to. -/
theorem length_scanPrefix_lt {b b' : Backend} {pfx key : Blob} (hpfx : pfx <+: key)
    (habsent : b.get? key = none) (hpresent : b'.get? key ≠ none)
    (hrest : ∀ k, k ≠ key → b'.get? k = b.get? k) :
    (b.scanPrefix pfx).length < (b'.scanPrefix pfx).length := by
  have hnew : key ∉ (b.scanPrefix pfx).map (·.key) := fun hmem =>
    (mem_map_key_scanPrefix.mp hmem).2 habsent
  have hsubset : (key :: (b.scanPrefix pfx).map (·.key)) ⊆ (b'.scanPrefix pfx).map (·.key) := by
    intro k hk
    rw [mem_map_key_scanPrefix]
    rcases List.mem_cons.mp hk with rfl | hk
    · exact ⟨hpfx, hpresent⟩
    · have hne : k ≠ key := ne_of_mem_of_not_mem hk hnew
      obtain ⟨hkpfx, hkpresent⟩ := mem_map_key_scanPrefix.mp hk
      exact ⟨hkpfx, by rw [hrest k hne]; exact hkpresent⟩
  have hnodup : (key :: (b.scanPrefix pfx).map (·.key)).Nodup :=
    List.nodup_cons.mpr ⟨hnew, b.nodup_scanPrefix pfx⟩
  have hlength := (List.subperm_of_subset hnodup hsubset).length_le
  rw [List.length_cons, List.length_map, List.length_map] at hlength
  exact hlength

end Backend

end PeerStore
