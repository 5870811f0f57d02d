import PeerStore.Proofs.Backend.Scan

/-!
# Calls on a backend

Whatever is asked of a backend, and whenever its writes fail: its records are what the writes of the
calls leave, made one after the other on a map (`Holding.next`), and its device index agrees with
them. So the keys of a device are the same by the index and by a look at every record
(**`index_follows_calls`**). One call keeps both (`holding_after`, `Reachable.after`), and a run is
one call after the other.
-/

set_option autoImplicit false

namespace PeerStore

/-! ## Writes on a map -/

namespace Contents

variable {α : Type}

/-- Makes writes one after the other; a write without a value is a removal. -/
def setAll (c : Contents α) (writes : List (Blob × Option α)) : Contents α :=
  writes.foldl (fun c w => Function.update c w.1 w.2) c

theorem setAll_append (c : Contents α) (writes more : List (Blob × Option α)) :
    c.setAll (writes ++ more) = (c.setAll writes).setAll more :=
  List.foldl_append

end Contents

theorem Tables.contents_putAll (t : Tables) (records : List Record) :
    (t.putAll records).contents
      = t.contents.setAll (records.map fun r => (r.key, some r.toStored)) := by
  induction records generalizing t with
  | nil => rfl
  | cons r rs ih =>
      show ((t.put r.key r.toStored).putAll rs).contents = _
      rw [ih, contents_put]
      rfl

theorem Tables.contents_removeAll_eq (t : Tables) (keys : List Blob) :
    (t.removeAll keys).contents = t.contents.setAll (keys.map fun key => (key, none)) := by
  induction keys generalizing t with
  | nil => rfl
  | cons key keys ih =>
      show ((t.remove key).removeAll keys).contents = _
      rw [ih, contents_remove]
      rfl

namespace Backend

/-! ## Calls -/

/-- What can be asked of a backend that is to change it, and writes that begin or cease to fail. -/
inductive Call where
  | apply (puts : List Entry) (deletes : List Blob) (time : Int) (device : String)
  | putBatch (puts : List Entry) (time : Int) (device : String)
  | deleteBatch (keys : List Blob)
  | restore (records : List Record) (deletes : List Blob)
  | clear
  | failWrites (on : Bool)

/-- What a call gives: the backend after it, or its failure. -/
def call (b : Backend) : Call → Except Status Backend
  | .apply puts deletes time device => b.apply puts deletes time device
  | .putBatch puts time device => b.putBatch puts time device
  | .deleteBatch keys => b.deleteBatch keys
  | .restore records deletes => b.restore records deletes
  | .clear => b.clear.map (·.2)
  | .failWrites on => .ok { b with failing := on }

/-- The backend after a call, which has changed nothing if it failed. -/
def after (b : Backend) (c : Call) : Backend := (b.call c).toOption.getD b

/-- The backend after calls, one after the other. -/
def run (b : Backend) (calls : List Call) : Backend := calls.foldl after b

/-! ## What calls mean -/

/-- The writes of a call in the order in which they are made: puts, and then removals. -/
def Call.writes : Call → List (Blob × Option Stored)
  | .apply puts deletes time device =>
      puts.map (fun e => (e.key, some ⟨e.value, time, device⟩)) ++
        deletes.map fun key => (key, none)
  | .putBatch puts time device => puts.map fun e => (e.key, some ⟨e.value, time, device⟩)
  | .deleteBatch keys => keys.map fun key => (key, none)
  | .restore records deletes =>
      records.map (fun r => (r.key, some r.toStored)) ++ deletes.map fun key => (key, none)
  | .clear | .failWrites _ => []

/-- What a backend holds under each key, and whether it refuses writes. -/
structure Holding where
  contents : Contents Stored := fun _ => none
  failing : Bool := false

/-- What is held after a call. -/
def Holding.next (m : Holding) : Call → Holding
  | .failWrites on => { m with failing := on }
  | .clear => if m.failing then m else { m with contents := fun _ => none }
  | c => if m.failing then m else { m with contents := m.contents.setAll c.writes }

/-- What a backend holds. -/
def holding (b : Backend) : Holding := ⟨b.contents, b.failing⟩

/-! ## One call -/

/-- A write is made unless writes fail. -/
theorem getD_write (b : Backend) (f : Tables → Tables) :
    (b.write f).toOption.getD b = if b.failing then b else { b with toTables := f b.toTables } := by
  rw [write]
  cases b.failing <;> rfl

/-- Puts followed by removals are their writes, one after the other. -/
theorem holding_getD_write (b : Backend) (records : List Record) (deletes : List Blob) :
    ((b.write fun t => (t.putAll records).removeAll deletes).toOption.getD b).holding
      = if b.failing then b.holding
        else { b.holding with
          contents := b.contents.setAll (records.map (fun r => (r.key, some r.toStored)) ++
            deletes.map fun key => (key, none)) } := by
  rw [getD_write]
  split
  · rfl
  · rw [Contents.setAll_append, ← Tables.contents_putAll, ← Tables.contents_removeAll_eq]
    rfl

/-- **A call does to the records what its writes do to a map**, one after the other. -/
theorem holding_after (b : Backend) (c : Call) : (b.after c).holding = b.holding.next c := by
  cases c with
  | apply puts deletes time device =>
      refine (b.holding_getD_write (puts.map fun e => { e with time, device }) deletes).trans ?_
      rw [List.map_map]
      rfl
  | putBatch puts time device =>
      refine (b.holding_getD_write (puts.map fun e => { e with time, device }) []).trans ?_
      rw [List.map_map, List.map_nil, List.append_nil]
      rfl
  | deleteBatch keys => exact b.holding_getD_write [] keys
  | restore records deletes => exact b.holding_getD_write records deletes
  | clear =>
      have hclear : b.after .clear = (b.write fun _ => {}).toOption.getD b := by
        rw [after, call, clear]
        cases b.write fun _ => {} <;> rfl
      rw [hclear, getD_write, Holding.next]
      by_cases hfailing : b.failing
      · rw [if_pos hfailing]
        exact (if_pos hfailing).symm
      · rw [if_neg hfailing]
        exact (if_neg hfailing).symm
  | failWrites on => rfl

/-- Calls lead to backends that can arise. -/
theorem Reachable.after {b : Backend} (h : b.Reachable) (c : Call) : (b.after c).Reachable := by
  cases hcall : b.call c with
  | error e =>
      rw [Backend.after, hcall]
      exact h
  | ok b' =>
      rw [Backend.after, hcall]
      show b'.Reachable
      cases c with
      | apply | putBatch | deleteBatch => exact h.apply hcall
      | restore => exact h.restore hcall
      | clear =>
          rw [call] at hcall
          cases hclear : b.clear with
          | error e =>
              rw [hclear] at hcall
              cases hcall
          | ok result =>
              rw [hclear] at hcall
              cases hcall
              exact h.clear hclear
      | failWrites on =>
          cases hcall
          exact h.fail on

/-! ## Runs -/

theorem holding_run (b : Backend) (calls : List Call) :
    (b.run calls).holding = calls.foldl Holding.next b.holding := by
  induction calls generalizing b with
  | nil => rfl
  | cons c calls ih =>
      show ((b.after c).run calls).holding = _
      rw [ih, holding_after]
      rfl

theorem Reachable.run {b : Backend} (h : b.Reachable) (calls : List Call) :
    (b.run calls).Reachable := by
  induction calls generalizing b with
  | nil => exact h
  | cons c calls ih => exact ih (h.after c)

theorem mem_scanDevice_iff {b : Backend} {device : String} {key : Blob} :
    key ∈ b.scanDevice device ↔ (b.contents key).map (·.device) = some device := by
  have hget (k : Blob) : b.get? k = (b.contents k).map (Record.ofStored k) := rfl
  rw [scanDevice, List.mem_map, Option.map_eq_some_iff]
  simp only [List.mem_filter, mem_snapshot_iff, beq_iff_eq]
  constructor
  · rintro ⟨r, ⟨hr, hdevice⟩, rfl⟩
    rw [hget] at hr
    obtain ⟨stored, hstored, hr⟩ := Option.map_eq_some_iff.mp hr
    rw [← hr] at hdevice
    exact ⟨stored, hstored, hdevice⟩
  · rintro ⟨stored, hstored, hdevice⟩
    refine ⟨.ofStored key stored, ⟨?_, hdevice⟩, rfl⟩
    show b.get? key = _
    rw [hget, hstored]
    rfl

/-- An index that agrees with the records gives what a look at every record gives. -/
theorem keysFromDevice_eq_scanDevice {b : Backend} (h : b.Indexed) (device : String) :
    b.keysFromDevice device = b.scanDevice device := by
  refine Blob.eq_of_ascending id ?_ ?_ fun key => ?_
  · rw [keysFromDevice, Table.keys, List.pairwise_map]
    exact (b.byDevice.keysOf device).ascending
  · rw [scanDevice, List.pairwise_map]
    exact b.ascending_snapshot.filter _
  · rw [mem_keysFromDevice_iff h, mem_scanDevice_iff]

/-- **The device index follows the records.** After any calls on an empty backend, with writes
failing whenever it may be, the records are what the writes of the calls that succeed leave, made
one after the other. The index holds for each device exactly the keys whose record is of that
device, and no device without keys; so it gives the keys that a look at every record gives. -/
theorem index_follows_calls (calls : List Call) :
    (run {} calls).holding = calls.foldl Holding.next {}
      ∧ (run {} calls).Indexed
      ∧ ∀ device, (run {} calls).keysFromDevice device = (run {} calls).scanDevice device := by
  have hindexed : (run {} calls).Indexed := (Reachable.empty.run calls).indexed
  exact ⟨holding_run {} calls, hindexed, keysFromDevice_eq_scanDevice hindexed⟩

/-- A key that is put twice and removed in one batch, one that moves from device to device and back
by a restoration, and a batch that is refused. -/
example :
    let b := run {} [.apply [⟨[1], [10]⟩, ⟨[2], [20]⟩, ⟨[1], [11]⟩] [[2], [3]] 1 "self",
      .putBatch [⟨[1], [30]⟩] 2 "peer", .failWrites true, .deleteBatch [[1]], .failWrites false,
      .restore [⟨⟨[11], 1, "self"⟩, [1]⟩] [[2]]]
    b.snapshot = [⟨⟨[11], 1, "self"⟩, [1]⟩] ∧ b.keysFromDevice "self" = [[1]]
      ∧ b.byDevice.keys = ["self"] := by
  decide +kernel

end Backend

end PeerStore
