import PeerStore.Proofs.Query.WriteOrder
import PeerStore.Proofs.Store.View
import PeerStore.Proofs.Store.WriteTime

/-!
# The order in which records were written

`Authors` says which event of a run wrote the record that each key holds, and never looks at a
clock: a batch is the author of what it puts, and a rollback gives keys back to those who had
written them before the transaction touched them. The time of a record is the time at which its
author wrote (`Dated`), through batches of this device and of others, failures and rollbacks. Since
later batches get later times, write-time order is the order of the authors in the run
(**`write_time_order`**).
-/

set_option autoImplicit false

namespace PeerStore

/-! ## Authors -/

/-- The numbers of the events that wrote what each key holds and, for each key that the transaction
has touched, what the key held before. -/
structure Authors where
  now : Contents Nat := fun _ => none
  noted : Blob → Option (Option Nat) := fun _ => none

namespace Authors

/-- The authors of what a rollback leaves. -/
def undone (a : Authors) : Contents Nat := fun key => (a.noted key).getD (a.now key)

/-- The authors after the `i`-th event has written a batch, with or without a note of what its keys
held before. -/
def wrote (a : Authors) (noting : Bool) (i : Nat) (batch : List Write) : Authors where
  now := a.now.writeAll (fun _ => i) batch
  noted key :=
    if noting && (Write.touched batch).contains key then (a.noted key).or (some (a.now key))
    else a.noted key

/-- The authors after the `i`-th event, a call that succeeds. A transaction takes note of the
batches of this device. -/
def after (a : Authors) (s : Session) (i : Nat) : Operation → Authors
  | .startTransaction => { a with noted := fun _ => none }
  | .rollback => { a with now := a.undone }
  | op =>
      match s.batchOf? op with
      | some (origin, batch) => a.wrote (s.inTransaction && origin == .here) i batch
      | none => a

/-- The authors after the `i`-th event. A call that fails writes nothing. -/
def next (a : Authors) (s : Session) (i : Nat) : Event → Authors
  | .perform now op => if (s.perform now op).1.isOk then a.after s i op else a
  | _ => a

/-- The authors after events, the first of which is the `i`-th. -/
def run (a : Authors) (s : Session) (i : Nat) : List Event → Authors
  | [] => a
  | e :: events => (a.next s i e).run (s.handle e) (i + 1) events

variable {a : Authors} {s : Session} {i : Nat} {op : Operation}

theorem after_of_batchOf? {origin : Origin} {batch : List Write}
    (h : s.batchOf? op = some (origin, batch)) :
    a.after s i op = a.wrote (s.inTransaction && origin == .here) i batch := by
  cases op with
  | startTransaction | rollback => cases h
  | _ => simp only [after, h]

/-- A batch that is noted leaves the notes from before as they are. -/
theorem noted_wrote {batch : List Write} {key : Blob} : (a.wrote true i batch).noted key
    = if key ∈ Write.touched batch then (a.noted key).or (some (a.now key)) else a.noted key := by
  simp [wrote]

theorem after_of_not_isChange (h : op.isChange = false) : a.after s i op = a := by
  cases op with
  | put | putBatch | delete | deleteBatch | clear | removeDeviceData | applyRemote
  | startTransaction | commit | rollback => cases h
  | _ => rfl

end Authors

/-- The author of each record after a run from an empty store. -/
def Session.authors (s : Session) (events : List Event) : Contents Nat :=
  (Authors.run {} s 0 events).now

/-- Whether one record comes before another by the events that wrote them, the earlier or the later
one first; records of one event are in ascending order of their keys. -/
def AuthoredBefore (authors : Contents Nat) (ascending : Bool) (a b : Record) : Prop :=
  ∃ i j, authors a.key = some i ∧ authors b.key = some j
    ∧ ((if ascending then i < j else j < i) ∨ i = j ∧ Blob.before a.key b.key = true)

namespace Session

variable {s s' t : Session} {a : Authors} {i : Nat} {time : Nat → Option Int}

/-! ## What is put has a time -/

/-- The removals of all records put nothing. -/
theorem valuesAfter_remove_snapshot (b : Backend) (c : Contents Blob) {key : Blob}
    (hkey : key ∈ Write.touched (b.snapshot.map fun r => .remove r.key)) :
    c.valuesAfter (b.snapshot.map fun r => .remove r.key) key = none := by
  have hremoved : key ∈ b.snapshot.map (·.key) := by
    rw [Write.mem_touched, List.map_map] at hkey
    exact hkey
  have hbatch : (b.snapshot.map fun r => Write.remove r.key)
      = (b.snapshot.map (·.key)).map .remove := by
    rw [List.map_map]
    rfl
  rw [hbatch, Contents.valuesAfter, Contents.writeAll_map_remove, if_pos hremoved]

/-- A call whose batch leaves a value under some key writes it at a time. -/
theorem writtenAt?_of_value {now : Int} {op : Operation} {origin : Origin} {batch : List Write}
    (hok : (s.perform now op).1.isOk = true) (hbatch : s.batchOf? op = some (origin, batch))
    {key value : Blob} (hkey : key ∈ Write.touched batch)
    (hvalue : s.backend.values.valuesAfter batch key = some value) :
    s.writtenAt? (.perform now op) = some (s.perform now op).2.lastWrite := by
  have htimed : s.timedBatch? op = some batch := by
    cases op with
    | clear =>
        cases hbatch
        rw [valuesAfter_remove_snapshot s.backend _ hkey] at hvalue
        cases hvalue
    | _ => exact congrArg (Option.map (·.2)) hbatch
  have hbusy : ¬s.backend.values.Idle batch := by
    intro hidle
    have hnone := (hidle key hkey).2
    rw [hvalue] at hnone
    cases hnone
  exact writtenAt?_eq_some_iff.mpr ⟨batch, htimed, hok, hbusy, rfl⟩

/-! ## The invariant -/

/-- The time of each record, and of each that a rollback would put back, is the one at which its
author wrote; what has no author is not there. -/
structure Dated (time : Nat → Option Int) (a : Authors) (s : Session) : Prop where
  now : ∀ key, (s.backend.contents key).map (fun r => some r.time) = (a.now key).map time
  noted : s.inTransaction = true → ∀ key,
    (s.transaction.log.prior? key).map (Option.map fun r => some r.time)
      = (a.noted key).map (Option.map time)

/-- A batch is the author of what it puts, at the time of its records. -/
theorem map_time_writeAll {c : Contents Stored} {d : Contents Nat} {batch : List Write}
    {stamp : Blob → Stored} (h : ∀ key, (c key).map (fun r => some r.time) = (d key).map time)
    (hclock : ∀ key ∈ Write.touched batch, ∀ value,
      c.values.valuesAfter batch key = some value → time i = some (stamp value).time) (key : Blob) :
    (c.writeAll stamp batch key).map (fun r => some r.time)
      = (d.writeAll (fun _ => i) batch key).map time := by
  by_cases hkey : key ∈ Write.touched batch
  · rw [Contents.writeAll_eq_map_valuesAfter c c.values hkey,
      Contents.writeAll_eq_map_valuesAfter d c.values hkey]
    cases hvalue : c.values.valuesAfter batch key with
    | none => rfl
    | some value => exact congrArg some (hclock key hkey value hvalue).symm
  · rw [Contents.writeAll_of_not_touched _ hkey, Contents.writeAll_of_not_touched _ hkey]
    exact h key

namespace Dated

theorem kept (h : Dated time a s) (hkept : s.Kept s') : Dated time a s' where
  now := by
    rw [hkept.contents]
    exact h.now
  noted hactive := by
    rw [hkept.inTransaction] at hactive
    rw [hkept.transaction]
    exact h.noted hactive

/-- A transaction notes for each key the author from before its first touch. -/
theorem noted_wrote (h : Dated time a s) {batch : List Write} (hwrote : s.Wrote .here batch t)
    (hactive : s.inTransaction = true) (key : Blob) :
    (t.transaction.log.prior? key).map (Option.map fun r => some r.time)
      = ((a.wrote true i batch).noted key).map (Option.map time) := by
  have hold := h.noted hactive key
  have hnow := h.now key
  rw [hwrote.log_here hactive, Authors.noted_wrote]
  by_cases hnoted : s.transaction.log.notes key = true
  · -- the note from the first touch stays
    rw [UndoLog.prior?_extend_of_notes hnoted, hold]
    cases hauthor : a.noted key with
    | some author => split <;> rfl
    | none =>
        rw [hauthor, Option.map_none, Option.map_eq_none_iff] at hold
        rw [UndoLog.prior?_eq_none_iff.mp hold] at hnoted
        exact absurd hnoted Bool.false_ne_true
  · have hfree := Bool.eq_false_iff.mpr hnoted
    rw [UndoLog.prior?_eq_none_iff.mpr hfree, Option.map_none, eq_comm,
      Option.map_eq_none_iff] at hold
    by_cases hkey : key ∈ Write.touched batch
    · rw [UndoLog.prior?_extend_of_mem hfree hkey, if_pos hkey, hold,
        Option.none_or, Option.map_some, Option.map_some, ← hnow, Backend.get?, Option.map_map]
      rfl
    · have hstill : (s.transaction.log.extend (Write.touched batch) s.backend.get?).notes key
          = false := by
        rw [Bool.eq_false_iff, Ne, UndoLog.notes_extend, not_or]
        exact ⟨hnoted, hkey⟩
      rw [UndoLog.prior?_eq_none_iff.mpr hstill, if_neg hkey, hold]
      rfl

/-- A batch of this device or of another one becomes the author of what it puts. -/
theorem wrote (h : Dated time a s) {origin : Origin} {batch : List Write}
    (hwrote : s.Wrote origin batch t)
    (hclock : ∀ key ∈ Write.touched batch, ∀ value,
      s.backend.values.valuesAfter batch key = some value → time i = some t.lastWrite) :
    Dated time (a.wrote (s.inTransaction && origin == .here) i batch) t where
  now := by
    rw [Backend.values_eq_values] at hclock
    rw [hwrote.contents]
    exact map_time_writeAll h.now hclock
  noted hactive' := by
    have hactive : s.inTransaction = true := hwrote.inTransaction.symm.trans hactive'
    rw [hactive, Bool.true_and]
    cases origin with
    | here => exact h.noted_wrote hwrote hactive
    | remote device =>
        have hlog : t.transaction.log = s.transaction.log := by
          rw [hwrote.transaction]
          rfl
        rw [hlog]
        exact h.noted hactive

/-- A rollback gives each key that was noted back to its author from before. -/
theorem undone (h : Dated time a s) (hactive : s.inTransaction = true)
    (hsound : s.transaction.log.Sound) : Dated time { a with now := a.undone } s.undone where
  now key := by
    have hnoted := h.noted hactive key
    rw [contents_undone hsound, UndoLog.undo]
    show _ = ((a.noted key).getD (a.now key)).map time
    cases hprior : s.transaction.log.prior? key with
    | none =>
        rw [hprior, Option.map_none, eq_comm, Option.map_eq_none_iff] at hnoted
        rw [hnoted]
        exact h.now key
    | some prior =>
        rw [hprior, Option.map_some, eq_comm, Option.map_eq_some_iff] at hnoted
        obtain ⟨author, hauthor, hmap⟩ := hnoted
        rw [hauthor, Option.getD_some, hmap, Option.map_map]
        rfl
  noted hended := by cases hended

/-- The store is emptied: nothing has an author any more. -/
theorem cleared (h : Dated time a s) (hidle : s.inTransaction = false) :
    Dated time (a.after s i .clear)
      { s with backend := { s.backend with toTables := {} } } where
  now := by
    have hempty (stamp : Blob → Stored) : (Tables.contents {} : Contents Stored)
        = s.backend.contents.writeAll stamp (s.backend.snapshot.map fun r => .remove r.key) :=
      (Contents.writeAll_remove_snapshot s.backend).symm
    rw [Authors.after_of_batchOf? rfl]
    show ∀ key, (Tables.contents {} key).map _ = _
    rw [hempty fun value => ⟨value, 0, ""⟩]
    refine map_time_writeAll h.now fun key hkey value hvalue => ?_
    rw [valuesAfter_remove_snapshot s.backend _ hkey] at hvalue
    cases hvalue
  noted hactive := absurd (hidle ▸ hactive) Bool.false_ne_true

/-- **One event keeps the dates**, if its own is the time at which it writes. -/
theorem handle (h : Dated time a s) (hsound : s.inTransaction = true → s.transaction.log.Sound)
    {e : Event} (hclock : time i = s.writtenAt? e) :
    Dated time (a.next s i e) (s.handle e) := by
  have hturn := s.handle_turn e
  generalize hs' : s.handle e = s' at hturn
  cases hturn with
  | still hstill hplain =>
      have hsame : a.next s i e = a := by
        cases e with
        | failWrites | register | unregister => rfl
        | perform now op =>
            rw [Authors.next]
            split
            · exact Authors.after_of_not_isChange (hplain now op rfl ‹_›)
            · rfl
      rw [hsame]
      exact h.kept hstill.kept
  | @wrote now op origin batch t _ hok hbatch hwrote haside =>
      rw [Authors.next, if_pos hok, Authors.after_of_batchOf? hbatch]
      refine (h.wrote hwrote fun key hkey value hvalue => ?_).kept (kept_of_publish haside)
      have htime : (s.perform now op).2.lastWrite = t.lastWrite := by
        show (s.handle (.perform now op)).lastWrite = _
        rw [hs', haside]
        exact t.lastWrite_publish _ _
      rw [hclock, writtenAt?_of_value hok hbatch hkey hvalue, htime]
  | cleared hok hidle haside =>
      rw [Authors.next, if_pos hok]
      exact (h.cleared hidle).kept (kept_of_publish haside)
  | started hok hidle hstart =>
      rw [Authors.next, if_pos hok, hstart]
      exact ⟨h.now, fun _ _ => rfl⟩
  | committed hok _ haside =>
      rw [Authors.next, if_pos hok]
      have hended : Dated time a
          { s with transaction := { s.transaction with phase := .committed, log := [] } } :=
        ⟨h.now, fun hactive => absurd hactive Bool.false_ne_true⟩
      exact hended.kept (kept_of_publish haside)
  | rolledBack hok hactive =>
      rw [Authors.next, if_pos hok]
      exact h.undone hactive (hsound hactive)

/-- A run keeps the dates, if those of its events are the times at which they write. -/
theorem run (h : Dated time a s) (hall : s.AllRecords fun _ _ => True) {events : List Event}
    (hclock : ∀ j, j < events.length → some (time (i + j)) = (s.times events)[j]?) :
    Dated time (a.run s i events) (s.run events) := by
  induction events generalizing a s i with
  | nil => exact h
  | cons e events ih =>
      have hfirst : time i = s.writtenAt? e := Option.some.inj (hclock 0 (Nat.zero_lt_succ _))
      have hall' : (s.handle e).AllRecords fun _ _ => True :=
        hall.turn (fun _ _ _ _ _ _ _ _ _ _ _ _ => trivial) (s.handle_turn e)
      refine ih (h.handle hall.sound hfirst) hall' fun j hj => ?_
      have hnext := hclock (j + 1) (Nat.succ_lt_succ hj)
      rw [← Nat.add_assoc, Nat.add_right_comm] at hnext
      exact hnext

end Dated

/-! ## Runs from an empty store -/

section

variable {s₀ : Session} {events : List Event}

/-- **Each record carries the time at which its author wrote**, and only what is there has one. -/
theorem dated_authors (events : List Event) (hempty : s₀.backend.toTables = {})
    (hidle : s₀.inTransaction = false) :
    (∀ key, s₀.authors events key = none ↔ (s₀.run events).backend.contents key = none)
      ∧ ∀ key r, (s₀.run events).backend.contents key = some r →
          ∃ i, s₀.authors events key = some i ∧ (s₀.times events)[i]? = some (some r.time) := by
  let time : Nat → Option Int := fun i => ((s₀.times events)[i]?).join
  have hstart : Dated time {} s₀ := by
    refine ⟨fun key => ?_, fun hactive => absurd (hidle ▸ hactive) Bool.false_ne_true⟩
    rw [hempty]
    rfl
  have hclock (j : Nat) (hj : j < events.length) :
      some (time (0 + j)) = (s₀.times events)[j]? := by
    rw [← s₀.length_times events] at hj
    rw [Nat.zero_add]
    show some ((s₀.times events)[j]?).join = _
    rw [List.getElem?_eq_getElem hj]
    rfl
  have hend := (hstart.run (.of_empty hidle hempty) hclock).now
  constructor
  · intro key
    have hkey := hend key
    constructor
    · intro hnone
      rw [authors] at hnone
      rw [hnone, Option.map_none, Option.map_eq_none_iff] at hkey
      exact hkey
    · intro hnone
      rw [hnone, Option.map_none, eq_comm, Option.map_eq_none_iff] at hkey
      exact hkey
  · intro key r hr
    have hkey := hend key
    rw [hr, Option.map_some, eq_comm, Option.map_eq_some_iff] at hkey
    obtain ⟨i, hi, htime⟩ := hkey
    exact ⟨i, hi, Option.join_eq_some_iff.mp htime⟩

/-- Of two events that write, the later one writes at the later time. -/
theorem lt_iff_of_times {i j : Nat} {a b : Int} (ha : (s₀.times events)[i]? = some (some a))
    (hb : (s₀.times events)[j]? = some (some b)) : (a < b ↔ i < j) ∧ (a = b ↔ i = j) := by
  have hlater {i j : Nat} {a b : Int} (ha : (s₀.times events)[i]? = some (some a))
      (hb : (s₀.times events)[j]? = some (some b)) (hij : i < j) : a < b := by
    obtain ⟨hi, ha⟩ := List.getElem?_eq_some_iff.mp ha
    obtain ⟨hj, hb⟩ := List.getElem?_eq_some_iff.mp hb
    exact List.pairwise_iff_getElem.mp (s₀.pairwise_times events) i j hi hj hij a ha b hb
  rcases Nat.lt_trichotomy i j with hij | rfl | hij
  · have hab := hlater ha hb hij
    omega
  · have hab : a = b := Option.some.inj (Option.some.inj (ha.symm.trans hb))
    omega
  · have hba := hlater hb ha hij
    omega

/-- Whether a selection asks for write-time order and for nothing else: as a query, or as a text
that is within the limits. -/
inductive AsksWriteOrder (s : Session) (ascending : Bool) : Selection → Prop where
  | query : AsksWriteOrder s ascending (.query [.orderByWriteTime ascending])
  | text {text : String} :
      Query.tokenize text = ["^OrderByWriteTime", if ascending then "^IS_ASC" else "^IS_DESC"] →
      text.utf8ByteSize ≤ s.profile.limits.queryBytes → 1 ≤ s.profile.limits.queryClauses →
      AsksWriteOrder s ascending (.text text)

theorem AsksWriteOrder.queryOf_eq {ascending : Bool} {selection : Selection}
    (h : s.AsksWriteOrder ascending selection) :
    s.queryOf selection = .ok [.orderByWriteTime ascending] := by
  cases h with
  | query => rfl
  | text htokens hbytes hclauses =>
      have htext : s.compiler.compile? _ = .ok [.orderByWriteTime ascending] :=
        Query.compile?_writeTime htokens hbytes hclauses
      simp only [queryOf, Query.Compiler.compile, htext, Query.Compiler.Outcome.result]

/-- A query for write-time order gives all records, sorted. -/
theorem query_of_asksWriteOrder (hopen : s.isOpen = true) {ascending : Bool} {selection : Selection}
    (h : s.AsksWriteOrder ascending selection) :
    s.query selection
      = (.ok ((Query.Plan.evaluate { writeTime := some ascending } s.backend.snapshot).map
          s.userEntry), s) := by
  have hok : (s.query selection).1 = .ok _ :=
    query_eq_ok_iff.mpr ⟨_, _, h.queryOf_eq, Query.plan?_writeTime ascending, hopen, rfl⟩
  exact Prod.ext hok (s.query_snd selection)

/-- **Write-time order is the order of the batches.** In any run from an empty store, with batches
of this device and of others, with failures, transactions and rollbacks, and whatever the clock
reads: the batches that write get later and later times, and each record carries the time of the
event that wrote it. A query for write-time order gives every record that is present, ordered by the
events that wrote them, with the records of one batch in ascending order of their stored keys in
either direction. -/
theorem write_time_order {s : Session} (hempty : s₀.backend.toTables = {})
    (hidle : s₀.inTransaction = false) (hrun : s₀.run events = s) :
    ((s₀.times events).filterMap id).Pairwise (· < ·)
      ∧ (∀ key, s₀.authors events key = none ↔ s.backend.contents key = none)
      ∧ (∀ key r, s.backend.contents key = some r → ∃ i, s₀.authors events key = some i
          ∧ (s₀.times events)[i]? = some (some r.time))
      ∧ (s.isOpen = true → ∀ ascending selection, s.AsksWriteOrder ascending selection →
          ∃ records : List Record, s.query selection = (.ok (records.map s.userEntry), s)
            ∧ records.Perm s.backend.snapshot
            ∧ records.Pairwise (AuthoredBefore (s₀.authors events) ascending)) := by
  subst hrun
  obtain ⟨hpresent, hdated⟩ := dated_authors events hempty hidle
  refine ⟨?_, hpresent, hdated, ?_⟩
  · rw [List.pairwise_filterMap]
    exact (s₀.pairwise_times events).imp fun h t ht u hu => h t ht u hu
  · intro hopen ascending selection hasks
    obtain ⟨hperm, hsorted⟩ := Query.pairwise_evaluate_writeTime ascending
      (s₀.run events).backend.nodup_snapshot
    refine ⟨_, query_of_asksWriteOrder hopen hasks, hperm, hsorted.imp_of_mem ?_⟩
    intro a b ha hb hbefore
    have hauthor {r : Record} (hr : r ∈ Query.Plan.evaluate { writeTime := some ascending }
        (s₀.run events).backend.snapshot) :
        ∃ i, s₀.authors events r.key = some i
          ∧ (s₀.times events)[i]? = some (some r.time) := by
      have hget := Backend.mem_snapshot_iff.mp (hperm.mem_iff.mp hr)
      exact hdated r.key r.toStored (Backend.get?_eq_some_iff.mp hget).2
    obtain ⟨i, hi, htimeA⟩ := hauthor ha
    obtain ⟨j, hj, htimeB⟩ := hauthor hb
    obtain ⟨hlt, heq⟩ := lt_iff_of_times htimeA htimeB
    obtain ⟨hgt, -⟩ := lt_iff_of_times htimeB htimeA
    refine ⟨i, j, hi, hj, ?_⟩
    rcases hbefore with hbefore | ⟨htime, hkey⟩
    · left
      cases ascending with
      | true => exact hlt.mp hbefore
      | false => exact hgt.mp hbefore
    · exact .inr ⟨heq.mp htime, hkey⟩

/-- The clock is set back, a write is refused, and a transaction that has written over one record of
the first batch and removed the other is rolled back after a batch of another device. Both records
of the first batch are from this batch again, and come last in descending order. -/
theorem write_time_order_after_rollback :
    let s₀ := fresh .singleVersion "self"
    let events : List Event := [.perform 9 (.putBatch [⟨[2], [20]⟩, ⟨[1], [10]⟩]),
      .perform 5 (.put [3] [30]), .failWrites true, .perform 5 (.put [3] [31]), .failWrites false,
      .perform 4 .startTransaction, .perform 4 (.put [2] [21]),
      .perform 4 (.applyRemote "peer" [⟨[4], [40]⟩] []), .perform 3 (.delete [1]),
      .perform 3 .rollback, .perform 3 (.put [5] [50])]
    let s := s₀.run events
    s₀.times events = [some 9, some 10, none, none, none, none, some 12, some 13, some 14, none,
        some 15]
      ∧ [[1], [2], [3], [4], [5]].map (s₀.authors events)
        = [some 0, some 0, some 1, some 7, some 10]
      ∧ ∃ records : List Record,
          s.query (.text "^OrderByWriteTime ^IS_DESC") = (.ok (records.map s.userEntry), s)
          ∧ records.Perm [⟨⟨[10], 9, "self"⟩, [1]⟩, ⟨⟨[20], 9, "self"⟩, [2]⟩,
              ⟨⟨[30], 10, "self"⟩, [3]⟩, ⟨⟨[40], 13, "peer"⟩, [4]⟩, ⟨⟨[50], 15, "self"⟩, [5]⟩]
          ∧ records.Pairwise (AuthoredBefore (s₀.authors events) false) := by
  intro s₀ events s
  obtain ⟨-, -, -, hquery⟩ := @write_time_order s₀ events s rfl rfl rfl
  obtain ⟨records, hrecords, hperm, hsorted⟩ := hquery (by decide +kernel) false
    (.text "^OrderByWriteTime ^IS_DESC")
    (.text (by decide +kernel) (by decide +kernel) (by decide +kernel))
  have hsnapshot : s.backend.snapshot = [⟨⟨[10], 9, "self"⟩, [1]⟩, ⟨⟨[20], 9, "self"⟩, [2]⟩,
      ⟨⟨[30], 10, "self"⟩, [3]⟩, ⟨⟨[40], 13, "peer"⟩, [4]⟩, ⟨⟨[50], 15, "self"⟩, [5]⟩] := by
    decide +kernel
  rw [hsnapshot] at hperm
  exact ⟨by decide +kernel, by decide +kernel, records, hrecords, hperm, hsorted⟩

end

end Session

end PeerStore
