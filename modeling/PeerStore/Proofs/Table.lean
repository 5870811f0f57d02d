import Mathlib.Data.List.Perm.Subperm
import PeerStore.Table

/-!
# Facts about tables

The look-up of a table after a write and after a removal (`Table.get?_insert`, `Table.get?_erase`),
its keys as a list without repetitions, and the members of the set of a list
(`KeySet.contains_ofList`). A table whose keys are among those of another has as many entries only
if it has all its keys (**`Table.size_eq_iff`**), so counting tells whether something is missing.
-/

set_option autoImplicit false

namespace PeerStore

variable {κ α β : Type} [KeyOrder κ]

namespace Table

/-! ## Emptiness and look-up -/

theorem isEmpty_iff (t : Table κ α) : t.isEmpty = true ↔ ∀ k, t.get? k = none := by
  rw [Table.isEmpty, List.isEmpty_iff]
  constructor
  · intro h k
    rw [Table.get?, h]
    rfl
  · intro h
    cases hes : t.toList with
    | nil => rfl
    | cons e es =>
        have hmem : (e.1, e.2) ∈ t.toList := by simp [hes]
        rw [Table.mem_toList_iff, h] at hmem
        simp at hmem

theorem get?_insert [DecidableEq κ] (t : Table κ α) (k k' : κ) (v : α) :
    (t.insert k v).get? k' = if k' = k then some v else t.get? k' := by
  by_cases h : k' = k
  · rw [if_pos h, h, get?_insert_self]
  · rw [if_neg h, get?_insert_of_ne _ _ (Ne.symm h)]

theorem get?_erase [DecidableEq κ] (t : Table κ α) (k k' : κ) :
    (t.erase k).get? k' = if k' = k then none else t.get? k' := by
  by_cases h : k' = k
  · rw [if_pos h, h, get?_erase_self]
  · rw [if_neg h, get?_erase_of_ne _ (Ne.symm h)]

theorem contains_erase [DecidableEq κ] (t : Table κ α) (k k' : κ) :
    (t.erase k).contains k' = (t.contains k' && !decide (k' = k)) := by
  rw [contains, get?_erase, contains]
  by_cases h : k' = k <;> simp [h]

theorem contains_filter (t : Table κ α) (keep : κ → Bool) (k : κ) :
    (t.filter fun k _ => keep k).contains k = (t.contains k && keep k) := by
  rw [Bool.eq_iff_iff, Bool.and_eq_true, contains, contains, Option.isSome_iff_exists,
    Option.isSome_iff_exists, ← exists_and_right]
  exact exists_congr fun v => t.get?_filter_eq_some_iff _ k v

/-- Writing what is there already changes nothing. -/
theorem insert_of_get? [DecidableEq κ] {t : Table κ α} {k : κ} {v : α} (h : t.get? k = some v) :
    t.insert k v = t := by
  refine ext fun k' => ?_
  rw [get?_insert]
  split
  · rename_i hk
    rw [hk, h]
  · rfl

/-- Of two values that are written under one key the second counts. -/
theorem insert_insert [DecidableEq κ] (t : Table κ α) (k : κ) (v v' : α) :
    (t.insert k v).insert k v' = t.insert k v' := by
  refine ext fun k' => ?_
  rw [get?_insert, get?_insert, get?_insert]
  split <;> rfl

/-- Removing what was written where nothing was leaves what was there. -/
theorem erase_insert [DecidableEq κ] {t : Table κ α} {k : κ} (h : t.get? k = none) (v : α) :
    (t.insert k v).erase k = t := by
  refine ext fun k' => ?_
  rw [get?_erase, get?_insert]
  split
  · rename_i hk
    rw [hk, h]
  · rfl

/-! ## Keys -/

theorem nodup_keys (t : Table κ α) : t.keys.Nodup :=
  List.Pairwise.map _ (fun _ _ => KeyOrder.ne_of_before) t.ascending

theorem mem_keys_iff (t : Table κ α) (k : κ) : k ∈ t.keys ↔ t.contains k = true := by
  rw [keys, List.mem_map, contains, Option.isSome_iff_exists]
  constructor
  · rintro ⟨⟨k, v⟩, hmem, rfl⟩
    exact ⟨v, (t.mem_toList_iff k v).mp hmem⟩
  · rintro ⟨v, hv⟩
    exact ⟨(k, v), (t.mem_toList_iff k v).mpr hv, rfl⟩

theorem length_keys (t : Table κ α) : t.keys.length = t.size := List.length_map ..

/-- **Counting tells whether something is missing.** Where the keys of one table are among those of
another, the sizes agree exactly if no key of the other is missing. -/
theorem size_eq_iff {t : Table κ α} {u : Table κ β}
    (h : ∀ k, t.contains k = true → u.contains k = true) :
    t.size = u.size ↔ ∀ k, u.contains k = true → t.contains k = true := by
  have hsub : t.keys.Subperm u.keys := t.nodup_keys.subperm fun k hk =>
    (u.mem_keys_iff k).mpr (h k ((t.mem_keys_iff k).mp hk))
  rw [← length_keys, ← length_keys]
  constructor
  · intro hsize k hk
    have hperm := hsub.perm_of_length_le (Nat.le_of_eq hsize.symm)
    exact (t.mem_keys_iff k).mp (hperm.mem_iff.mpr ((u.mem_keys_iff k).mpr hk))
  · intro hall
    have hsub' : u.keys.Subperm t.keys := u.nodup_keys.subperm fun k hk =>
      (t.mem_keys_iff k).mpr (hall k ((u.mem_keys_iff k).mp hk))
    exact Nat.le_antisymm hsub.length_le hsub'.length_le

end Table

namespace KeySet

theorem contains_add [DecidableEq κ] (s : KeySet κ) (k k' : κ) :
    (s.add k).contains k' = (decide (k' = k) || s.contains k') := by
  rw [add, Table.contains, Table.get?_insert]
  by_cases h : k' = k
  · simp [h]
  · simp [h, Table.contains]

/-- The members of the set of a list are those of the list, repetitions or not. -/
theorem contains_ofList [DecidableEq κ] (ks : List κ) (k : κ) :
    (ofList ks).contains k = decide (k ∈ ks) := by
  have hadd : ∀ (s : KeySet κ), (ks.foldl add s).contains k
      = (decide (k ∈ ks) || s.contains k) := by
    induction ks with
    | nil => intro s; simp
    | cons k' ks ih =>
        intro s
        rw [List.foldl_cons, ih, contains_add, Bool.eq_iff_iff]
        simp only [Bool.or_eq_true, decide_eq_true_eq, List.mem_cons]
        tauto
  rw [ofList, hadd]
  exact Bool.or_false _

end KeySet

end PeerStore
