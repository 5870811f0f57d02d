import Mathlib.Data.List.Basic
import PeerStore.Proofs.Backend.Tables

/-!
# Effects of a batch

A batch is carried out as a list of effects, one for each key that it touches. `Effect.ofBatch_eq`
gives that list: with each touched key stands the value that the writes, made one after the
other, leave under it. From this follow what the backend holds afterwards
(`contents_carryOut`: the same as after the writes), when a batch does nothing
(`Contents.Idle`), and what its notice tells (`Notice.Tells`).
-/

set_option autoImplicit false

namespace PeerStore

/-- The values that a backend holds. -/
def Backend.values (b : Backend) : Contents Blob := fun key => (b.get? key).map (·.value)

theorem Backend.values_eq (b : Backend) (key : Blob) :
    b.values key = (b.contents key).map (·.value) := by
  rw [values, get?, Option.map_map]
  rfl

namespace Contents

variable {α : Type} {stamp : Blob → α}

/-- The values after a batch. -/
abbrev valuesAfter (c : Contents Blob) (batch : List Write) : Contents Blob := writeAll id c batch

theorem valuesAfter_append (c : Contents Blob) (batch more : List Write) :
    c.valuesAfter (batch ++ more) = (c.valuesAfter batch).valuesAfter more :=
  writeAll_append c batch more

/-- What a touched key holds is the value of the last write, stamped. -/
theorem writeAll_eq_map_valuesAfter (c : Contents α) (d : Contents Blob) {batch : List Write}
    {key : Blob} (h : key ∈ Write.touched batch) :
    writeAll stamp c batch key = (d.valuesAfter batch key).map stamp := by
  rw [valuesAfter, map_writeAll]
  exact writeAll_of_mem _ _ (Write.mem_touched.mp h)

/-- A batch that does nothing: each key that it touches was absent, and still is. -/
def Idle (c : Contents Blob) (batch : List Write) : Prop :=
  ∀ key ∈ Write.touched batch, c key = none ∧ c.valuesAfter batch key = none

instance (c : Contents Blob) (batch : List Write) : Decidable (c.Idle batch) :=
  inferInstanceAs (Decidable (∀ key ∈ Write.touched batch, _))

/-- A batch that does nothing leaves the values as they are. -/
theorem Idle.valuesAfter_eq {c : Contents Blob} {batch : List Write} (h : c.Idle batch) :
    c.valuesAfter batch = c := by
  funext key
  by_cases hkey : key ∈ Write.touched batch
  · rw [(h key hkey).1, (h key hkey).2]
  · exact writeAll_of_not_touched c hkey

end Contents

/-! ## The list of effects -/

namespace Effect

/-- **One effect for each touched key**, with the value that the batch leaves under it. -/
theorem ofBatch_eq (b : Backend) (batch : List Write) :
    ofBatch b batch = (Write.touched batch).map fun key =>
      { key, value := b.values.valuesAfter batch key, prior := b.get? key } := by
  have hnodup : ((Write.collapse batch).map (·.key)).Nodup := by
    rw [Write.map_key_collapse]
    exact Write.nodup_touched batch
  rw [ofBatch, ← Write.map_key_collapse, List.map_map]
  refine List.map_congr_left fun w hw => ?_
  -- of the writes left each has a key of its own, so what it writes stays
  have hvalue : b.values.valuesAfter batch w.key = w.value := by
    rw [Contents.valuesAfter, ← Contents.writeAll_collapse, Contents.writeAll_of_nodup _ hnodup hw,
      Option.map_id_fun, id_eq]
  simp only [Function.comp_apply, hvalue]

theorem filterMap_put?_ofBatch (b : Backend) (batch : List Write) :
    (ofBatch b batch).filterMap put? = (Write.touched batch).filterMap fun key =>
      (b.values.valuesAfter batch key).map (Entry.mk key) := by
  rw [ofBatch_eq, List.filterMap_map]
  rfl

theorem filterMap_removed?_ofBatch (b : Backend) (batch : List Write) :
    (ofBatch b batch).filterMap removed? = (Write.touched batch).filter fun key =>
      (b.values.valuesAfter batch key).isNone && (b.values key).isSome := by
  rw [ofBatch_eq, List.filterMap_map, ← List.filterMap_eq_filter]
  refine List.filterMap_congr fun key _ => ?_
  simp [removed?, Backend.values, Option.guard]

end Effect

theorem Entry.key_of_map_mk {key : Blob} {value : Option Blob} {e : Entry}
    (h : value.map (Entry.mk key) = some e) : e.key = key := by
  obtain ⟨v, -, rfl⟩ := Option.map_eq_some_iff.mp h
  rfl

/-- Entries made from keys have the keys from which one is made. -/
theorem map_key_filterMap (keys : List Blob) {f : Blob → Option Entry}
    (h : ∀ key e, f key = some e → e.key = key) :
    (keys.filterMap f).map (·.key) = keys.filter fun key => (f key).isSome := by
  rw [List.map_filterMap, ← List.filterMap_eq_filter]
  refine List.filterMap_congr fun key _ => ?_
  cases hf : f key with
  | none => simp [Option.guard, hf]
  | some e => simp [Option.guard, hf, h key e hf]

/-! ## What the backend holds afterwards -/

/-- Carries out what effects ask of the tables: puts, and then removals. -/
def Tables.carryOut (t : Tables) (effects : List Effect) (time : Int) (device : String) : Tables :=
  (t.putAll ((effects.filterMap Effect.put?).map fun e => { e with time, device })).removeAll
    (effects.filterMap Effect.removed?)

theorem Tables.Indexed.carryOut {t : Tables} (h : t.Indexed) (effects : List Effect) (time : Int)
    (device : String) : (t.carryOut effects time device).Indexed :=
  (h.putAll _).removeAll _

/-- **Carrying out the effects of a batch leaves what its writes leave.** -/
theorem contents_carryOut (b : Backend) (batch : List Write) (time : Int) (device : String) :
    (b.toTables.carryOut (Effect.ofBatch b batch) time device).contents
      = b.contents.writeAll (fun value => ⟨value, time, device⟩) batch := by
  funext key
  have hkeys : (((Effect.ofBatch b batch).filterMap Effect.put?).map fun e =>
        ({ e with time, device } : Record)).map (·.key)
      = (Write.touched batch).filter fun key => (b.values.valuesAfter batch key).isSome := by
    rw [List.map_map, Effect.filterMap_put?_ofBatch]
    exact (map_key_filterMap _ fun key e => Entry.key_of_map_mk).trans
      (by simp only [Option.isSome_map])
  rw [Tables.carryOut, Tables.contents_removeAll, Effect.filterMap_removed?_ofBatch]
  by_cases hmem : key ∈ Write.touched batch
  · rw [Contents.writeAll_eq_map_valuesAfter b.contents b.values hmem]
    cases hafter : b.values.valuesAfter batch key with
    | none =>
        rw [Tables.contents_putAll_of_not_mem]
        · -- an absent key is not removed, and need not be
          cases hc : b.contents key <;> simp [hmem, hafter, Backend.values_eq, hc]
        · rw [hkeys]
          simp [hafter]
    | some value =>
        rw [if_neg (by simp [hafter])]
        refine Tables.contents_putAll_of_mem _ (r := ⟨⟨value, time, device⟩, key⟩) ?_ ?_
        · rw [hkeys]
          exact (Write.nodup_touched batch).filter _
        · rw [Effect.filterMap_put?_ofBatch, List.map_filterMap, List.mem_filterMap]
          exact ⟨key, hmem, by rw [hafter]; rfl⟩
  · -- no effect is about this key
    rw [Contents.writeAll_of_not_touched _ hmem, if_neg (by simp [hmem]),
      Tables.contents_putAll_of_not_mem]
    rw [hkeys]
    simp [hmem]

/-- A batch asks nothing of the backend exactly if it does nothing. -/
theorem noEffect_iff (b : Backend) (batch : List Write) :
    (((Effect.ofBatch b batch).filterMap Effect.put?).isEmpty
      && ((Effect.ofBatch b batch).filterMap Effect.removed?).isEmpty) = true
      ↔ b.values.Idle batch := by
  rw [Bool.and_eq_true, List.isEmpty_iff, List.isEmpty_iff, Effect.filterMap_put?_ofBatch,
    Effect.filterMap_removed?_ofBatch, List.filterMap_eq_nil_iff, List.filter_eq_nil_iff]
  constructor
  · rintro ⟨hput, hremove⟩ key hkey
    have hafter : b.values.valuesAfter batch key = none := by simpa using hput key hkey
    have hbefore := hremove key hkey
    simp only [hafter] at hbefore
    exact ⟨by simpa using hbefore, hafter⟩
  · intro h
    exact ⟨fun key hkey => by simp [(h key hkey).2], fun key hkey => by simp [(h key hkey).1]⟩

/-! ## What observers are told -/

/-- A notice that tells what became of touched keys: each stands in the list that its presence
before and after asks for, with its last value, in the order of the keys, and in no other. -/
structure Notice.Tells (n : Notice) (touched : List Blob) (before after : Contents Blob) :
    Prop where
  inserts : n.inserts = touched.filterMap fun key =>
    if before key = none then (after key).map (Entry.mk key) else none
  updates : n.updates = touched.filterMap fun key =>
    if before key = none then none else (after key).map (Entry.mk key)
  deletes : n.deletes = touched.filterMap fun key =>
    if after key = none then (before key).map (Entry.mk key) else none
  nodup : n.keys.Nodup
  isClear : n.isClear = false

namespace Notice

/-- The notice of touched keys that are user keys already. -/
def ofTouched (touched : List Blob) (before after : Contents Blob) (device : String) : Notice :=
  classify (touched.map fun key => ⟨key, before key, after key⟩) device

variable {touched : List Blob} {before after : Contents Blob} {device : String}

theorem inserts_ofTouched : (ofTouched touched before after device).inserts
    = touched.filterMap fun key =>
        if before key = none then (after key).map (Entry.mk key) else none := by
  show (touched.map _).filterMap Change.inserted? = _
  rw [List.filterMap_map]
  refine List.filterMap_congr fun key _ => ?_
  cases hb : before key <;> cases ha : after key <;> simp [Change.inserted?, hb, ha]

theorem updates_ofTouched : (ofTouched touched before after device).updates
    = touched.filterMap fun key =>
        if before key = none then none else (after key).map (Entry.mk key) := by
  show (touched.map _).filterMap Change.updated? = _
  rw [List.filterMap_map]
  refine List.filterMap_congr fun key _ => ?_
  cases hb : before key <;> cases ha : after key <;> simp [Change.updated?, hb, ha]

theorem deletes_ofTouched : (ofTouched touched before after device).deletes
    = touched.filterMap fun key =>
        if after key = none then (before key).map (Entry.mk key) else none := by
  show (touched.map _).filterMap Change.deleted? = _
  rw [List.filterMap_map]
  refine List.filterMap_congr fun key _ => ?_
  cases hb : before key <;> cases ha : after key <;> simp [Change.deleted?, hb, ha]

/-- The keys of a notice are touched keys, sorted by three conditions that exclude each other. -/
theorem keys_ofTouched : (ofTouched touched before after device).keys
    = touched.filter (fun key => (before key).isNone && (after key).isSome)
      ++ touched.filter (fun key => (before key).isSome && (after key).isSome)
      ++ touched.filter (fun key => (before key).isSome && (after key).isNone) := by
  rw [keys, entries, List.map_append, List.map_append, inserts_ofTouched, updates_ofTouched,
    deletes_ofTouched, map_key_filterMap, map_key_filterMap, map_key_filterMap]
  · congr 1
    · congr 1
      all_goals
        refine List.filter_congr fun key _ => ?_
        cases hb : before key <;> simp
    · refine List.filter_congr fun key _ => ?_
      cases ha : after key <;> simp
  all_goals
    intro key e he
    split at he
    all_goals first
      | exact Entry.key_of_map_mk he
      | cases he

theorem nodup_keys_ofTouched (h : touched.Nodup) :
    (ofTouched touched before after device).keys.Nodup := by
  rw [keys_ofTouched, List.nodup_append, List.nodup_append]
  refine ⟨⟨h.filter _, h.filter _, ?_⟩, h.filter _, ?_⟩
  -- a key in two of the lists would have been present and absent at once
  · intro a ha b hb
    rintro rfl
    simp only [List.mem_filter, Bool.and_eq_true, Option.isNone_iff_eq_none] at ha hb
    simp [ha.2.1] at hb
  · intro a ha b hb
    rintro rfl
    simp only [List.mem_append, List.mem_filter, Bool.and_eq_true, Option.isNone_iff_eq_none]
      at ha hb
    rcases ha with ha | ha
    · simp [ha.2.1] at hb
    · simp [hb.2.2] at ha

theorem tells_ofTouched (h : touched.Nodup) :
    (ofTouched touched before after device).Tells touched before after where
  inserts := inserts_ofTouched
  updates := updates_ofTouched
  deletes := deletes_ofTouched
  nodup := nodup_keys_ofTouched h
  isClear := rfl

/-- A notice is empty exactly if no touched key was or is present. -/
theorem isEmpty_ofTouched : (ofTouched touched before after device).isEmpty = true
    ↔ ∀ key ∈ touched, before key = none ∧ after key = none := by
  rw [isEmpty, Bool.and_eq_true, Bool.and_eq_true, List.isEmpty_iff, List.isEmpty_iff,
    List.isEmpty_iff, inserts_ofTouched, updates_ofTouched, deletes_ofTouched,
    List.filterMap_eq_nil_iff, List.filterMap_eq_nil_iff, List.filterMap_eq_nil_iff]
  constructor
  · rintro ⟨⟨hins, hupd⟩, hdel⟩ key hkey
    have hins := hins key hkey
    have hupd := hupd key hkey
    have hdel := hdel key hkey
    cases hb : before key <;> cases ha : after key <;> simp_all
  · intro h
    refine ⟨⟨?_, ?_⟩, ?_⟩ <;> intro key hkey <;> simp [h key hkey]

end Notice

/-- In a shared store the changes of a batch are those of its touched keys. -/
theorem classify_ofBatch_shared (b : Backend) (batch : List Write) (device : String) :
    Notice.classify ((Effect.ofBatch b batch).map (Effect.change .shared device)) device
      = .ofTouched (Write.touched batch) b.values (b.values.valuesAfter batch) device := by
  rw [Effect.ofBatch_eq, List.map_map]
  rfl

end PeerStore
