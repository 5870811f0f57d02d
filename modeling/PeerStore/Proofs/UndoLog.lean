import Mathlib.Data.List.Nodup
import PeerStore.Proofs.Backend.Tables
import PeerStore.Transaction

/-!
# The undo log

A transaction notes each key when it first touches it, with the record from before
(`UndoLog.extend`). `UndoLog.undo` is what the log means: the contents with the noted keys put
back. Writing keys after noting them does not change it (`undo_extend`), and carrying out the log
leaves exactly that (`Sound.contents_restore`).
-/

set_option autoImplicit false

namespace PeerStore

/-! ## Noting keys -/

namespace UndoLog

/-- Whether a key was touched. -/
def notes (log : UndoLog) (key : Blob) : Bool := log.any (·.1 == key)

/-- Adds the keys that were not touched yet, each with what it held. -/
def extend (log : UndoLog) (keys : List Blob) (prior : Blob → Option Record) : UndoLog :=
  log ++ (keys.filter fun key => !log.notes key).map fun key => (key, prior key)

theorem notes_iff {log : UndoLog} {key : Blob} : log.notes key = true ↔ key ∈ log.map (·.1) := by
  simp [notes]

/-- What the log says that a key held, if the key was touched. -/
def prior? (log : UndoLog) (key : Blob) : Option (Option Record) :=
  (log.find? (·.1 == key)).map (·.2)

/-- The contents with the touched keys put back. -/
def undo (log : UndoLog) (c : Contents Stored) : Contents Stored := fun key =>
  match log.prior? key with
  | some prior => prior.map (·.toStored)
  | none => c key

/-- The records that a rollback writes, in its order. -/
def records (log : UndoLog) : List Record := log.restoreOrder.filterMap (·.2)

/-- The keys that a rollback removes, in its order: they held nothing. -/
def created (log : UndoLog) : List Blob :=
  log.restoreOrder.filterMap fun e => if e.2.isNone then some e.1 else none

/-- A log notes each key once, and with a record of that key. -/
structure Sound (log : UndoLog) : Prop where
  nodup : (log.map (·.1)).Nodup
  key_eq : ∀ key r, (key, some r) ∈ log → r.key = key

theorem sound_nil : Sound [] := ⟨List.nodup_nil, fun _ _ h => absurd h List.not_mem_nil⟩

/-! ## What is noted -/

theorem prior?_eq_none_iff {log : UndoLog} {key : Blob} :
    log.prior? key = none ↔ log.notes key = false := by
  rw [prior?, Option.map_eq_none_iff, List.find?_eq_none, notes, List.any_eq_false]

theorem prior?_append (log more : UndoLog) (key : Blob) :
    prior? (log ++ more) key = (log.prior? key).or (more.prior? key) := by
  rw [prior?, List.find?_append, Option.map_or]
  rfl

theorem prior?_map {keys : List Blob} {prior : Blob → Option Record} {key : Blob}
    (h : key ∈ keys) : prior? (keys.map fun key => (key, prior key)) key = some (prior key) := by
  induction keys with
  | nil => exact absurd h List.not_mem_nil
  | cons k ks ih =>
      by_cases hk : k = key
      · simp [prior?, hk]
      · rw [prior?, List.map_cons, List.find?_cons_of_neg (by simpa using hk)]
        exact ih ((List.mem_cons.mp h).resolve_left (Ne.symm hk))

theorem notes_extend {log : UndoLog} {keys : List Blob} {prior : Blob → Option Record}
    {key : Blob} :
    (log.extend keys prior).notes key = true ↔ log.notes key = true ∨ key ∈ keys := by
  rw [notes_iff, notes_iff, extend, List.map_append, List.mem_append, List.map_map]
  by_cases h : key ∈ log.map (·.1)
  · simp only [h, true_or]
  · have hnew : log.notes key = false := by
      rw [Bool.eq_false_iff, Ne, notes_iff]
      exact h
    simp [h, hnew]

/-- What keys held stays noted as long as the keys not noted hold the same. -/
theorem extend_map {keys more : List Blob} {before now : Blob → Option Record}
    (h : ∀ key, key ∉ keys → now key = before key) :
    extend (keys.map fun key => (key, before key)) more now
      = (keys ++ more.filter fun key => !keys.contains key).map fun key => (key, before key) := by
  have hnotes (key : Blob) : notes (keys.map fun key => (key, before key)) key
      = keys.contains key := by
    rw [Bool.eq_iff_iff, notes_iff, List.map_map, List.contains_iff_mem]
    exact iff_of_eq (congrArg (key ∈ ·) (List.map_id keys))
  rw [extend, List.map_append]
  simp only [hnotes]
  congr 1
  refine List.map_congr_left fun key hkey => ?_
  rw [h key]
  simpa using (List.mem_filter.mp hkey).2

/-- A noted key keeps its note. -/
theorem prior?_extend_of_notes {log : UndoLog} {keys : List Blob}
    {prior : Blob → Option Record} {key : Blob} (h : log.notes key = true) :
    (log.extend keys prior).prior? key = log.prior? key := by
  rw [extend, prior?_append]
  cases hp : log.prior? key with
  | some p => rfl
  | none =>
      rw [prior?_eq_none_iff.mp hp] at h
      exact absurd h Bool.false_ne_true

/-- A key that was not noted before is noted with what it holds. -/
theorem prior?_extend_of_mem {log : UndoLog} {keys : List Blob} {prior : Blob → Option Record}
    {key : Blob} (h : log.notes key = false) (hkey : key ∈ keys) :
    (log.extend keys prior).prior? key = some (prior key) := by
  rw [extend, prior?_append, prior?_eq_none_iff.mpr h, Option.none_or]
  exact prior?_map (List.mem_filter.mpr ⟨hkey, by simp [h]⟩)

theorem Sound.extend {log : UndoLog} (h : log.Sound) {keys : List Blob} (hkeys : keys.Nodup)
    {b : Backend} : (log.extend keys b.get?).Sound where
  nodup := by
    rw [UndoLog.extend, List.map_append, List.map_map, List.nodup_append]
    refine ⟨h.nodup, ?_, ?_⟩
    · rw [show (Prod.fst ∘ fun key => (key, b.get? key)) = id from rfl, List.map_id]
      exact hkeys.filter _
    · intro key hlog other hnew
      rintro rfl
      simp only [List.mem_map, List.mem_filter, Function.comp_apply, exists_eq_right] at hnew
      have hnoted := notes_iff.mpr hlog
      rw [hnoted] at hnew
      simp at hnew
  key_eq key r hmem := by
    rcases List.mem_append.mp hmem with hlog | hnew
    · exact h.key_eq key r hlog
    · obtain ⟨key', -, heq⟩ := List.mem_map.mp hnew
      obtain ⟨rfl, hget⟩ := Prod.mk.inj heq
      obtain ⟨stored, -, rfl⟩ := Option.map_eq_some_iff.mp hget
      rfl

/-! ## What the log means -/

/-- A touched key is put back whatever it holds now. -/
theorem undo_of_notes {log : UndoLog} {key : Blob} (h : log.notes key = true)
    (c d : Contents Stored) : log.undo c key = log.undo d key := by
  unfold undo
  cases hp : log.prior? key with
  | some prior => rfl
  | none =>
      rw [prior?_eq_none_iff.mp hp] at h
      exact absurd h Bool.false_ne_true

/-- A key that was not touched stays as it is. -/
theorem undo_of_not_notes {log : UndoLog} {key : Blob} (h : log.notes key = false)
    (c : Contents Stored) : log.undo c key = c key := by
  rw [undo, prior?_eq_none_iff.mpr h]

/-- **Writing keys that are noted first does not change what the log puts back.** -/
theorem undo_extend {log : UndoLog} {keys : List Blob} {b : Backend} {c : Contents Stored}
    (h : ∀ key, key ∉ keys → c key = b.contents key) :
    (log.extend keys b.get?).undo c = log.undo b.contents := by
  funext key
  by_cases hnoted : log.notes key = true
  · -- noted before: neither the new notes nor the writes matter
    rw [undo_of_notes hnoted _ c, undo, undo, prior?_extend_of_notes hnoted]
  · have hnew : log.notes key = false := Bool.eq_false_iff.mpr hnoted
    rw [undo_of_not_notes hnew]
    by_cases hkey : key ∈ keys
    · -- noted now, with what it holds before it is written
      rw [undo, prior?_extend_of_mem hnew hkey]
      show (b.get? key).map (·.toStored) = b.contents key
      rw [Backend.get?, Option.map_map]
      exact Option.map_id'
    · rw [undo_of_not_notes, h key hkey]
      rw [Bool.eq_false_iff, Ne, notes_extend]
      rintro (hlog | hmem)
      · exact hnoted hlog
      · exact hkey hmem

/-! ## Carrying the log out -/

theorem mem_records_iff {log : UndoLog} {r : Record} :
    r ∈ log.records ↔ ∃ key, (key, some r) ∈ log := by
  simp [records, restoreOrder, List.mem_filterMap]

theorem mem_created_iff {log : UndoLog} {key : Blob} : key ∈ log.created ↔ (key, none) ∈ log := by
  simp [created, restoreOrder, List.mem_filterMap]

/-- There is nothing to carry out exactly if no key was touched. -/
theorem nothing_to_restore_iff {log : UndoLog} :
    (log.records.isEmpty && log.created.isEmpty) = true ↔ log = [] := by
  rw [Bool.and_eq_true, List.isEmpty_iff, List.isEmpty_iff]
  constructor
  · rintro ⟨hrecords, hcreated⟩
    refine List.eq_nil_iff_forall_not_mem.mpr fun (key, prior) hmem => ?_
    cases prior with
    | none =>
        have : key ∈ log.created := mem_created_iff.mpr hmem
        rw [hcreated] at this
        exact List.not_mem_nil this
    | some r =>
        have : r ∈ log.records := mem_records_iff.mpr ⟨key, hmem⟩
        rw [hrecords] at this
        exact List.not_mem_nil this
  · rintro rfl
    exact ⟨rfl, rfl⟩

theorem Sound.prior?_eq_some {log : UndoLog} (h : log.Sound) {key : Blob}
    {prior : Option Record} (hmem : (key, prior) ∈ log) : log.prior? key = some prior := by
  have hnodup := h.nodup
  clear h
  induction log with
  | nil => exact absurd hmem List.not_mem_nil
  | cons e log ih =>
      rw [List.map_cons, List.nodup_cons] at hnodup
      rcases List.mem_cons.mp hmem with rfl | hmem
      · simp [prior?]
      · have hne : e.1 ≠ key := by
          rintro rfl
          exact hnodup.1 (List.mem_map.mpr ⟨_, hmem, rfl⟩)
        rw [prior?, List.find?_cons_of_neg (by simpa using hne)]
        exact ih hmem hnodup.2

theorem mem_of_prior?_eq_some {log : UndoLog} {key : Blob} {prior : Option Record}
    (h : log.prior? key = some prior) : (key, prior) ∈ log := by
  obtain ⟨e, he, rfl⟩ := Option.map_eq_some_iff.mp h
  have hkey : e.1 = key := by simpa using List.find?_some he
  rw [← hkey]
  exact List.mem_of_find?_eq_some he

/-- The records of a log have different keys. -/
theorem Sound.nodup_records {log : UndoLog} (h : log.Sound) :
    (log.records.map (·.key)).Nodup := by
  have hkeys : log.records.map (·.key) = (log.reverse.filter (·.2.isSome)).map (·.1) := by
    rw [records, restoreOrder, List.map_filterMap, ← List.filterMap_eq_filter,
      List.map_filterMap]
    refine List.filterMap_congr fun (key, prior) hmem => ?_
    cases prior with
    | none => rfl
    | some r => exact congrArg some (h.key_eq key r (List.mem_reverse.mp hmem))
  rw [hkeys]
  refine List.Nodup.sublist (List.filter_sublist.map _) ?_
  rw [List.map_reverse, List.nodup_reverse]
  exact h.nodup

/-- **Carrying out the log leaves what it means.** -/
theorem Sound.contents_restore {log : UndoLog} (h : log.Sound) (t : Tables) :
    ((t.putAll log.records).removeAll log.created).contents = log.undo t.contents := by
  funext key
  rw [Tables.contents_removeAll, undo]
  cases hp : log.prior? key with
  | none =>
      -- an entry of the key would show in the look-up
      have hnot : ∀ prior, (key, prior) ∉ log := by
        intro prior hmem
        rw [h.prior?_eq_some hmem] at hp
        exact absurd hp (by simp)
      rw [if_neg fun hmem => hnot none (mem_created_iff.mp hmem),
        Tables.contents_putAll_of_not_mem]
      intro hmem
      obtain ⟨r, hr, rfl⟩ := List.mem_map.mp hmem
      obtain ⟨key, hentry⟩ := mem_records_iff.mp hr
      rw [h.key_eq key r hentry] at hnot
      exact hnot (some r) hentry
  | some prior =>
      have hentry := mem_of_prior?_eq_some hp
      cases prior with
      | none => rw [if_pos (mem_created_iff.mpr hentry)]; rfl
      | some r =>
          have hcreated : key ∉ log.created := by
            intro hmem
            rw [h.prior?_eq_some (mem_created_iff.mp hmem)] at hp
            exact absurd hp (by simp)
          rw [if_neg hcreated, ← h.key_eq key r hentry]
          exact Tables.contents_putAll_of_mem t h.nodup_records
            (mem_records_iff.mpr ⟨key, hentry⟩)

end UndoLog

namespace Transaction

/-- Touches keys one after the other; `prior` says what each held. -/
def touchAll (t : Transaction) (keys : List Blob) (prior : Blob → Option Record) : Transaction :=
  keys.foldl (fun t key => (t.touch key (prior key)).2) t

/-- What a transaction makes of keys that were written: it notes those that were written here. -/
def noteAll (t : Transaction) (origin : Origin) (keys : List Blob)
    (prior : Blob → Option Record) : Transaction :=
  match origin with
  | .here => t.touchAll keys prior
  | .remote _ => t

section Touch

variable {t : Transaction} {key : Blob} (before : Option Record)

theorem touch_of_idle (h : t.isActive = false) : (t.touch key before).2 = t := by
  rw [touch, h]
  rfl

theorem touch_of_noted (h : t.log.notes key = true) : (t.touch key before).2 = t := by
  rw [touch, show t.log.any (·.1 == key) = true from h, Bool.not_true, Bool.and_false]
  rfl

theorem touch_of_new (hactive : t.isActive = true) (h : t.log.notes key = false) :
    (t.touch key before).2 = { t with log := t.log ++ [(key, before)] } := by
  rw [touch, hactive, show t.log.any (·.1 == key) = false from h]
  rfl

end Touch

variable {t : Transaction} {keys : List Blob} {prior : Blob → Option Record}

theorem touchAll_of_idle (h : t.isActive = false) : t.touchAll keys prior = t := by
  induction keys with
  | nil => rfl
  | cons key keys ih =>
      show (t.touch key (prior key)).2.touchAll keys prior = t
      rw [touch_of_idle _ h]
      exact ih

/-- A running transaction notes the keys that it has not noted before. -/
theorem touchAll_of_active (h : t.isActive = true) (hkeys : keys.Nodup) :
    t.touchAll keys prior = { t with log := t.log.extend keys prior } := by
  induction keys generalizing t with
  | nil =>
      show t = { t with log := t.log ++ [] }
      rw [List.append_nil]
  | cons key keys ih =>
      rw [List.nodup_cons] at hkeys
      show (t.touch key (prior key)).2.touchAll keys prior = _
      by_cases hnoted : t.log.notes key = true
      · rw [touch_of_noted _ hnoted, ih h hkeys.2, UndoLog.extend, UndoLog.extend,
          List.filter_cons_of_neg (by simp [hnoted])]
      · have hnew := touch_of_new (prior key) h (Bool.eq_false_iff.mpr hnoted)
        -- the keys behind are other keys, so the new entry hides none of them
        have hrest : (keys.filter fun k => !UndoLog.notes (t.log ++ [(key, prior key)]) k)
            = keys.filter fun k => !t.log.notes k := by
          refine List.filter_congr fun k hk => ?_
          have hne : key ≠ k := by
            rintro rfl
            exact hkeys.1 hk
          simp [UndoLog.notes, hne]
        rw [hnew, ih (by exact h) hkeys.2, UndoLog.extend, UndoLog.extend, hrest,
          List.filter_cons_of_pos (by simpa using hnoted), List.map_cons, List.append_assoc]
        rfl

/-- Noting keys neither begins nor ends a transaction. -/
theorem isActive_noteAll (hkeys : keys.Nodup) (origin : Origin) :
    (t.noteAll origin keys prior).isActive = t.isActive := by
  cases origin with
  | remote device => rfl
  | here =>
      show (t.touchAll keys prior).isActive = t.isActive
      by_cases h : t.isActive = true
      · rw [touchAll_of_active h hkeys]
        rfl
      · rw [touchAll_of_idle (Bool.eq_false_iff.mpr h)]

end Transaction

end PeerStore
