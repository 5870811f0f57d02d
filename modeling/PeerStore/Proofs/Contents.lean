import Mathlib.Data.List.Induction
import Mathlib.Data.List.Nodup
import Mathlib.Logic.Function.Basic
import PeerStore.Proofs.Table
import PeerStore.Store.Batch

/-!
# Contents under batches

`Contents α` says what is kept under each key. A batch means: make its writes one after the other
(`Contents.writeAll`). The store does not do that: it first leaves one write for each key
(`Write.collapse`), which it finds by a table of places (`Write.Collapsed.InStep`).
`writeAll_collapse` says that this makes no difference to the contents, and `map_key_collapse` that
the keys then stand in the order of their first occurrence (`touched`).
-/

set_option autoImplicit false

namespace PeerStore

/-! ## Keys in the order of their first occurrence -/

section EraseDups

variable {α : Type} [BEq α] [LawfulBEq α]

theorem eraseDups_filter (p : α → Bool) :
    ∀ l : List α, (l.filter p).eraseDups = l.eraseDups.filter p
  | [] => rfl
  | a :: l => by
      -- `eraseDups` goes on with a filtered tail, so the recursion is on the length
      have ih := eraseDups_filter p (l.filter fun b => !b == a)
      rw [List.eraseDups_cons]
      by_cases ha : p a = true
      · rw [List.filter_cons_of_pos ha, List.filter_cons_of_pos ha, List.eraseDups_cons, ← ih,
          List.filter_filter, List.filter_filter]
        simp only [Bool.and_comm]
      · rw [List.filter_cons_of_neg ha, List.filter_cons_of_neg ha, ← ih, List.filter_filter]
        congr 1
        refine List.filter_congr fun b _ => ?_
        cases hb : p b with
        | false => rfl
        | true =>
            have hba : b ≠ a := by
              rintro rfl
              exact ha hb
            simp [hba]
termination_by l => l.length
decreasing_by exact Nat.lt_succ_of_le (List.length_filter_le ..)

theorem nodup_eraseDups : ∀ l : List α, l.eraseDups.Nodup
  | [] => List.nodup_nil
  | a :: l => by
      rw [List.eraseDups_cons, List.nodup_cons]
      refine ⟨fun h => ?_, nodup_eraseDups _⟩
      have := (List.mem_filter.mp (List.mem_eraseDups.mp h)).2
      simp at this
termination_by l => l.length
decreasing_by exact Nat.lt_succ_of_le (List.length_filter_le ..)

end EraseDups

/-- The keys that a batch touches, in the order of their first occurrence. -/
def Write.touched (batch : List Write) : List Blob := (batch.map (·.key)).eraseDups

namespace Write

theorem mem_touched {batch : List Write} {key : Blob} :
    key ∈ touched batch ↔ key ∈ batch.map (·.key) :=
  List.mem_eraseDups

theorem nodup_touched (batch : List Write) : (touched batch).Nodup := nodup_eraseDups _

/-- A batch behind another adds the keys that the other does not touch. -/
theorem touched_append (batch more : List Write) :
    touched (batch ++ more)
      = touched batch ++ (touched more).filter fun key => !(touched batch).contains key := by
  rw [touched, List.map_append, List.eraseDups_append]
  congr 1
  rw [List.removeAll, eraseDups_filter]
  refine List.filter_congr fun key _ => ?_
  rw [List.elem_eq_contains, Bool.eq_iff_iff]
  simp [mem_touched]

/-- The keys of a batch are those of another with one more at its end. -/
theorem touched_concat (batch : List Write) (w : Write) :
    touched (batch ++ [w])
      = if w.key ∈ touched batch then touched batch else touched batch ++ [w.key] := by
  have hlast : touched [w] = [w.key] := rfl
  rw [touched_append, hlast, List.filter_singleton]
  by_cases hw : w.key ∈ touched batch <;> simp [hw]

/-! ### Places -/

/-- Whether the table has the places of the keys, each of which has one. -/
def Collapsed.InStep (c : Collapsed) : Prop :=
  ∀ key i, c.places.get? key = some i ↔ (c.writes.map (·.key))[i]? = some key

namespace Collapsed

variable {c : Collapsed} {w : Write}

theorem InStep.nodup (h : c.InStep) : (c.writes.map (·.key)).Nodup := by
  refine List.nodup_iff_getElem?_ne_getElem?.mpr fun i j hij hj heq => ?_
  obtain ⟨key, hkey⟩ : ∃ key, (c.writes.map (·.key))[j]? = some key :=
    ⟨_, List.getElem?_eq_getElem hj⟩
  have hi := (h key i).mpr (heq.trans hkey)
  rw [(h key j).mpr hkey] at hi
  exact absurd (Option.some.inj hi) (Nat.ne_of_gt hij)

theorem InStep.get?_eq_none_iff (h : c.InStep) (key : Blob) :
    c.places.get? key = none ↔ key ∉ c.writes.map (·.key) := by
  rw [List.mem_iff_getElem?, Option.eq_none_iff_forall_ne_some]
  push Not
  exact forall_congr' fun i => not_congr (h key i)

/-- A write to a key that has a place stands there then, and the places stay. -/
theorem InStep.add_of_mem (h : c.InStep) (hw : w.key ∈ c.writes.map (·.key)) :
    ∃ before v after, c.writes = before ++ v :: after ∧ v.key = w.key
      ∧ c.add w = { c with writes := before ++ w :: after } := by
  obtain ⟨i, hi⟩ := List.mem_iff_getElem?.mp hw
  have hplace : c.places.get? w.key = some i := (h w.key i).mpr hi
  rw [List.getElem?_map, Option.map_eq_some_iff] at hi
  obtain ⟨v, hv, hkey⟩ := hi
  obtain ⟨hlt, hget⟩ := List.getElem?_eq_some_iff.mp hv
  obtain ⟨before, v', after, hwrites, hlength, hmodify⟩ :=
    List.exists_of_modify (fun v => { v with value := w.value }) hlt
  obtain rfl : v = v' := by
    subst hlength
    rw [hwrites, List.getElem?_append_right (Nat.le_refl _), Nat.sub_self] at hv
    exact (Option.some.inj hv).symm
  refine ⟨before, v, after, hwrites, hkey, ?_⟩
  rw [add, hplace]
  dsimp only
  rw [hmodify, hkey]

/-- A write to a new key gets the next place. -/
theorem InStep.add_of_notMem (h : c.InStep) (hw : w.key ∉ c.writes.map (·.key)) :
    c.add w = { places := c.places.insert w.key c.writes.length, writes := c.writes ++ [w] } := by
  rw [add, (h.get?_eq_none_iff w.key).mpr hw]

theorem InStep.map_key_add (h : c.InStep) (w : Write) :
    (c.add w).writes.map (·.key)
      = if w.key ∈ c.writes.map (·.key) then c.writes.map (·.key)
        else c.writes.map (·.key) ++ [w.key] := by
  split
  · rename_i hw
    obtain ⟨before, v, after, hwrites, hkey, hadd⟩ := h.add_of_mem hw
    rw [hadd, hwrites]
    simp [hkey]
  · rename_i hw
    rw [h.add_of_notMem hw, List.map_append, List.map_singleton]

/-- **Places stay right.** -/
theorem InStep.add (h : c.InStep) (w : Write) : (c.add w).InStep := by
  intro key i
  rw [h.map_key_add]
  split
  · rename_i hw
    obtain ⟨before, v, after, -, -, hadd⟩ := h.add_of_mem hw
    rw [hadd]
    exact h key i
  · rename_i hw
    rw [h.add_of_notMem hw, List.getElem?_append, Table.get?_insert, List.length_map]
    split
    · rename_i hkey
      subst hkey
      -- the new key stands at the end and nowhere before
      have hbefore : (c.writes.map (·.key))[i]? ≠ some w.key := fun hi =>
        hw (List.mem_iff_getElem?.mpr ⟨i, hi⟩)
      split
      · rename_i hlt
        exact iff_of_false (fun heq => by cases heq; exact Nat.lt_irrefl _ hlt) hbefore
      · rename_i hge
        rw [List.getElem?_singleton, Option.some_inj]
        simp
        omega
    · rename_i hkey
      split
      · exact h key i
      · rename_i hge
        rw [h key i, List.getElem?_eq_none (by simpa using hge), List.getElem?_singleton]
        simp [Ne.symm hkey]

theorem inStep_foldl (batch : List Write) : (batch.foldl Collapsed.add {}).InStep := by
  induction batch using List.reverseRecOn with
  | nil => exact fun key i => iff_of_false (Option.some_ne_none i).symm (by simp)
  | append_singleton batch w ih =>
      rw [List.foldl_concat]
      exact ih.add w

end Collapsed

/-- **The writes left of a batch stand in the order in which their keys first occur.** -/
theorem map_key_collapse (batch : List Write) : (collapse batch).map (·.key) = touched batch := by
  induction batch using List.reverseRecOn with
  | nil => rfl
  | append_singleton batch w ih =>
      rw [collapse, List.foldl_concat, (Collapsed.inStep_foldl batch).map_key_add, touched_concat,
        show (batch.foldl Collapsed.add {}).writes.map (·.key) = touched batch from ih]

end Write

/-! ## Contents -/

/-- What is kept under each key. -/
abbrev Contents (α : Type) := Blob → Option α

namespace Contents

variable {α β : Type} {stamp : Blob → α}

/-- Makes one write; `stamp` turns a value into what is kept of it. -/
def write (stamp : Blob → α) (c : Contents α) (w : Write) : Contents α :=
  Function.update c w.key (w.value.map stamp)

/-- Makes the writes of a batch one after the other. -/
def writeAll (stamp : Blob → α) (c : Contents α) (batch : List Write) : Contents α :=
  batch.foldl (write stamp) c

theorem write_self (c : Contents α) (w : Write) : write stamp c w w.key = w.value.map stamp :=
  Function.update_self ..

theorem write_of_ne (c : Contents α) {w : Write} {key : Blob} (h : key ≠ w.key) :
    write stamp c w key = c key :=
  Function.update_of_ne h ..

theorem writeAll_append (c : Contents α) (batch more : List Write) :
    writeAll stamp c (batch ++ more) = writeAll stamp (writeAll stamp c batch) more :=
  List.foldl_append

/-- A key that the batch does not touch keeps what it has. -/
theorem writeAll_of_not_mem (c : Contents α) {batch : List Write} {key : Blob}
    (h : key ∉ batch.map (·.key)) : writeAll stamp c batch key = c key := by
  induction batch generalizing c with
  | nil => rfl
  | cons w ws ih =>
      rw [List.map_cons, List.mem_cons, not_or] at h
      show writeAll stamp (write stamp c w) ws key = c key
      rw [ih _ h.2, write_of_ne c h.1]

theorem writeAll_of_not_touched (c : Contents α) {batch : List Write} {key : Blob}
    (h : key ∉ Write.touched batch) : writeAll stamp c batch key = c key :=
  writeAll_of_not_mem c fun hmem => h (Write.mem_touched.mpr hmem)

/-- What a key holds after a batch depends on what it held, and on no other key. -/
theorem writeAll_congr {c d : Contents α} (batch : List Write) {key : Blob} (h : c key = d key) :
    writeAll stamp c batch key = writeAll stamp d batch key := by
  induction batch generalizing c d with
  | nil => exact h
  | cons w ws ih =>
      refine ih ?_
      by_cases hk : key = w.key
      · rw [hk, write_self, write_self]
      · rw [write_of_ne c hk, write_of_ne d hk, h]

/-- What a key that the batch touches holds after it does not depend on the contents before. -/
theorem writeAll_of_mem (c d : Contents α) {batch : List Write} {key : Blob}
    (h : key ∈ batch.map (·.key)) : writeAll stamp c batch key = writeAll stamp d batch key := by
  induction batch generalizing c d with
  | nil => simp at h
  | cons w ws ih =>
      by_cases hmem : key ∈ ws.map (·.key)
      · exact ih (write stamp c w) (write stamp d w) hmem
      · have hk : key = w.key := by simpa [hmem] using h
        refine writeAll_congr ws ?_
        rw [hk, write_self, write_self]

/-- Looking only at a part of what is kept is writing only that part. -/
theorem map_writeAll (f : α → β) (c : Contents α) (batch : List Write) (key : Blob) :
    (writeAll stamp c batch key).map f
      = writeAll (fun value => f (stamp value)) (fun key => (c key).map f) batch key := by
  induction batch generalizing c with
  | nil => rfl
  | cons w ws ih =>
      show (writeAll stamp (write stamp c w) ws key).map f = _
      rw [ih]
      refine writeAll_congr ws ?_
      by_cases hk : key = w.key
      · rw [hk, write_self, write_self, Option.map_map]
        rfl
      · rw [write_of_ne c hk, write_of_ne _ hk]

/-- Of writes to different keys each counts. -/
theorem writeAll_of_nodup (c : Contents α) {batch : List Write}
    (h : (batch.map (·.key)).Nodup) {w : Write} (hw : w ∈ batch) :
    writeAll stamp c batch w.key = w.value.map stamp := by
  induction batch generalizing c with
  | nil => simp at hw
  | cons v vs ih =>
      rw [List.map_cons, List.nodup_cons] at h
      rcases List.mem_cons.mp hw with rfl | hw
      · show writeAll stamp (write stamp c w) vs w.key = _
        rw [writeAll_of_not_mem _ h.1, write_self]
      · exact ih (write stamp c v) h.2 hw

/-- Of two writes to one key with others in between the first does not count, if the second stands in
its place. -/
theorem writeAll_replace (c : Contents α) {before after : List Write} {v w : Write}
    (hkey : v.key = w.key) (hafter : w.key ∉ after.map (·.key)) :
    writeAll stamp c (before ++ w :: after)
      = write stamp (writeAll stamp c (before ++ v :: after)) w := by
  rw [writeAll_append, writeAll_append]
  funext key
  show writeAll stamp (write stamp (writeAll stamp c before) w) after key
    = write stamp (writeAll stamp (write stamp (writeAll stamp c before) v) after) w key
  by_cases hk : key = w.key
  · rw [hk, writeAll_of_not_mem _ hafter, write_self, write_self]
  · rw [write_of_ne _ hk]
    exact writeAll_congr after (by rw [write_of_ne _ hk, write_of_ne _ (hkey ▸ hk)])

/-- **Keeping one write for each key does not change what a batch means.** -/
theorem writeAll_collapse (c : Contents α) (batch : List Write) :
    writeAll stamp c (Write.collapse batch) = writeAll stamp c batch := by
  induction batch using List.reverseRecOn with
  | nil => rfl
  | append_singleton batch w ih =>
      have hstep := Write.Collapsed.inStep_foldl batch
      rw [writeAll_append, ← ih, Write.collapse, Write.collapse, List.foldl_concat]
      generalize batch.foldl Write.Collapsed.add {} = kept at hstep
      show writeAll stamp c (kept.add w).writes = write stamp (writeAll stamp c kept.writes) w
      by_cases hw : w.key ∈ kept.writes.map (·.key)
      · obtain ⟨before, v, after, hwrites, hkey, hadd⟩ := hstep.add_of_mem hw
        have hnodup := hstep.nodup
        rw [hwrites, List.map_append, List.map_cons, hkey] at hnodup
        have hafter : w.key ∉ after.map (·.key) :=
          (List.nodup_cons.mp (List.nodup_append.mp hnodup).2.1).1
        rw [hadd, hwrites]
        exact writeAll_replace c hkey hafter
      · rw [hstep.add_of_notMem hw, writeAll_append]
        rfl

end Contents

end PeerStore
