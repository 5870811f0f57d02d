import PeerStore.Proofs.Store.Effects

/-!
# Replicas

A replica is a copy of the contents of a store that is kept up by notices alone: it writes what a
notice tells to have come or to have been written over, and then removes what it tells to have gone
(`Notice.applyTo`). A notice of touched keys that tells what became of them leads from the contents
before to the contents after (`Notice.Tells.applyTo`), and nothing in it contradicts what the replica
holds (`Notice.Fits`, `Notice.Tells.fits`).
-/

set_option autoImplicit false

namespace PeerStore

namespace Notice

/-- The writes that a replica makes of a notice. -/
def writes (n : Notice) : List Write :=
  (n.inserts ++ n.updates).map (fun e => .put e.key e.value)
    ++ n.deletes.map fun e => .remove e.key

/-- What a replica holds after a notice. -/
def applyTo (n : Notice) (c : Contents Blob) : Contents Blob := c.valuesAfter n.writes

/-- A notice that is consistent with a replica: what comes is absent, what is written over is
present, what goes is present with the value that the notice gives, no key is named twice, and a
notice of a store that was emptied empties the replica. -/
structure Fits (n : Notice) (c : Contents Blob) : Prop where
  inserts : ∀ e ∈ n.inserts, c e.key = none
  updates : ∀ e ∈ n.updates, c e.key ≠ none
  deletes : ∀ e ∈ n.deletes, c e.key = some e.value
  nodup : n.keys.Nodup
  isClear : n.isClear = true → n.applyTo c = fun _ => none

/-! ## What one notice does to a replica -/

theorem map_key_writes (n : Notice) : n.writes.map (·.key) = n.keys := by
  simp only [writes, keys, entries, List.map_append, List.map_map]
  rfl

/-- A key that a notice does not name keeps its value. -/
theorem applyTo_of_not_mem {n : Notice} {key : Blob} (h : key ∉ n.keys) (c : Contents Blob) :
    n.applyTo c key = c key :=
  Contents.writeAll_of_not_mem c (by rwa [map_key_writes])

/-- What came or was written over has the value that the notice gives. -/
theorem applyTo_of_mem_put {n : Notice} (hnodup : n.keys.Nodup) {e : Entry}
    (h : e ∈ n.inserts ++ n.updates) (c : Contents Blob) : n.applyTo c e.key = some e.value := by
  have hwrite : Write.put e.key e.value ∈ n.writes :=
    List.mem_append_left _ (List.mem_map.mpr ⟨e, h, rfl⟩)
  rw [← map_key_writes] at hnodup
  exact Contents.writeAll_of_nodup c hnodup hwrite

/-- What went is gone. -/
theorem applyTo_of_mem_deletes {n : Notice} (hnodup : n.keys.Nodup) {e : Entry}
    (h : e ∈ n.deletes) (c : Contents Blob) : n.applyTo c e.key = none := by
  have hwrite : Write.remove e.key ∈ n.writes :=
    List.mem_append_right _ (List.mem_map.mpr ⟨e, h, rfl⟩)
  rw [← map_key_writes] at hnodup
  exact Contents.writeAll_of_nodup c hnodup hwrite

/-- An empty notice changes nothing. -/
theorem applyTo_of_isEmpty {n : Notice} (h : n.isEmpty = true) (c : Contents Blob) :
    n.applyTo c = c := by
  simp only [isEmpty, Bool.and_eq_true, List.isEmpty_iff] at h
  obtain ⟨⟨hinserts, hupdates⟩, hdeletes⟩ := h
  rw [applyTo, writes, hinserts, hupdates, hdeletes]
  rfl

/-! ## Notices of touched keys -/

namespace Tells

variable {n : Notice} {touched : List Blob} {before after : Contents Blob}

theorem mem_inserts (h : n.Tells touched before after) {e : Entry} :
    e ∈ n.inserts ↔ e.key ∈ touched ∧ before e.key = none ∧ after e.key = some e.value := by
  rw [h.inserts, List.mem_filterMap]
  constructor
  · rintro ⟨key, hkey, he⟩
    split at he
    · obtain ⟨value, hafter, rfl⟩ := Option.map_eq_some_iff.mp he
      exact ⟨hkey, ‹_›, hafter⟩
    · cases he
  · rintro ⟨hkey, hbefore, hafter⟩
    exact ⟨e.key, hkey, by rw [if_pos hbefore, hafter]; rfl⟩

theorem mem_updates (h : n.Tells touched before after) {e : Entry} :
    e ∈ n.updates ↔ e.key ∈ touched ∧ before e.key ≠ none ∧ after e.key = some e.value := by
  rw [h.updates, List.mem_filterMap]
  constructor
  · rintro ⟨key, hkey, he⟩
    split at he
    · cases he
    · obtain ⟨value, hafter, rfl⟩ := Option.map_eq_some_iff.mp he
      exact ⟨hkey, ‹_›, hafter⟩
  · rintro ⟨hkey, hbefore, hafter⟩
    exact ⟨e.key, hkey, by rw [if_neg hbefore, hafter]; rfl⟩

theorem mem_deletes (h : n.Tells touched before after) {e : Entry} :
    e ∈ n.deletes ↔ e.key ∈ touched ∧ before e.key = some e.value ∧ after e.key = none := by
  rw [h.deletes, List.mem_filterMap]
  constructor
  · rintro ⟨key, hkey, he⟩
    split at he
    · obtain ⟨value, hbefore, rfl⟩ := Option.map_eq_some_iff.mp he
      exact ⟨hkey, hbefore, ‹_›⟩
    · cases he
  · rintro ⟨hkey, hbefore, hafter⟩
    exact ⟨e.key, hkey, by rw [if_pos hafter, hbefore]; rfl⟩

/-- A key that is named was touched, and was or is present. -/
theorem of_mem_keys (h : n.Tells touched before after) {key : Blob} (hkey : key ∈ n.keys) :
    key ∈ touched ∧ ¬(before key = none ∧ after key = none) := by
  obtain ⟨e, he, rfl⟩ := List.mem_map.mp hkey
  rw [entries, List.mem_append, List.mem_append] at he
  rcases he with (hinsert | hupdate) | hdelete
  · obtain ⟨htouched, -, hafter⟩ := h.mem_inserts.mp hinsert
    exact ⟨htouched, by simp [hafter]⟩
  · obtain ⟨htouched, hbefore, -⟩ := h.mem_updates.mp hupdate
    exact ⟨htouched, by simp [hbefore]⟩
  · obtain ⟨htouched, hbefore, -⟩ := h.mem_deletes.mp hdelete
    exact ⟨htouched, by simp [hbefore]⟩

/-- **A notice of touched keys leads from the contents before to the contents after**, if nothing
else has changed. -/
theorem applyTo (h : n.Tells touched before after)
    (hrest : ∀ key, key ∉ touched → after key = before key) : n.applyTo before = after := by
  funext key
  by_cases htouched : key ∈ touched
  · cases hafter : after key with
    | some value =>
        have hput : (⟨key, value⟩ : Entry) ∈ n.inserts ++ n.updates := by
          rw [List.mem_append, h.mem_inserts, h.mem_updates]
          by_cases hbefore : before key = none
          · exact .inl ⟨htouched, hbefore, hafter⟩
          · exact .inr ⟨htouched, hbefore, hafter⟩
        exact applyTo_of_mem_put h.nodup hput before
    | none =>
        cases hbefore : before key with
        | some value =>
            have hdelete : (⟨key, value⟩ : Entry) ∈ n.deletes :=
              h.mem_deletes.mpr ⟨htouched, hbefore, hafter⟩
            exact applyTo_of_mem_deletes h.nodup hdelete before
        | none =>
            rw [applyTo_of_not_mem fun hkey => (h.of_mem_keys hkey).2 ⟨hbefore, hafter⟩, hbefore]
  · rw [applyTo_of_not_mem fun hkey => htouched (h.of_mem_keys hkey).1, hrest key htouched]

/-- A notice of touched keys is consistent with the contents before. -/
theorem fits (h : n.Tells touched before after) : n.Fits before where
  inserts _ he := (h.mem_inserts.mp he).2.1
  updates _ he := (h.mem_updates.mp he).2.1
  deletes _ he := (h.mem_deletes.mp he).2.1
  nodup := h.nodup
  isClear hclear := by
    rw [h.isClear] at hclear
    exact absurd hclear Bool.false_ne_true

end Tells

/-- The notice of keys none of which is left tells of those that were there. -/
theorem ofTouched_none (keys : List Blob) (before : Contents Blob) (device : String) :
    ofTouched keys before (fun _ => none) device
      = { deletes := keys.filterMap fun key => (before key).map (Entry.mk key), device } := by
  have hinserts : (ofTouched keys before (fun _ => none) device).inserts = [] := by
    simp [inserts_ofTouched]
  have hupdates : (ofTouched keys before (fun _ => none) device).updates = [] := by
    simp [updates_ofTouched]
  have hdeletes : (ofTouched keys before (fun _ => none) device).deletes
      = keys.filterMap fun key => (before key).map (Entry.mk key) := by
    simp [deletes_ofTouched]
  let n := ofTouched keys before (fun _ => none) device
  show Notice.mk n.inserts n.updates n.deletes false device = _
  rw [hinserts, hupdates, hdeletes]

end Notice

/-! ## Notices one after the other -/

namespace Contents

/-- What a replica holds after notices. -/
def follow (c : Contents Blob) (told : List (Origin × Notice)) : Contents Blob :=
  told.foldl (fun c t => t.2.applyTo c) c

/-- Notices each of which is consistent with the replica when it is applied. -/
def Consistent (c : Contents Blob) : List (Origin × Notice) → Prop
  | [] => True
  | t :: told => t.2.Fits c ∧ (t.2.applyTo c).Consistent told

theorem follow_append (c : Contents Blob) (told more : List (Origin × Notice)) :
    c.follow (told ++ more) = (c.follow told).follow more :=
  List.foldl_append

theorem consistent_append {c : Contents Blob} {told more : List (Origin × Notice)}
    (h : c.Consistent told) (hmore : (c.follow told).Consistent more) :
    c.Consistent (told ++ more) := by
  induction told generalizing c with
  | nil => exact hmore
  | cons t told ih => exact ⟨h.1, ih h.2 hmore⟩

end Contents

end PeerStore
