import PeerStore.Proofs.Query.Scope

/-!
# Write-time order

A query for write-time order gives all records, sorted by their times in its direction and, among
records of one time, by ascending key in either direction (`writtenNoLater`). Records of different
keys never tie, so the order is strict (**`pairwise_evaluate_writeTime`**). The text of such a query
is the keyword with a mark of the direction (**`compile?_writeTime`**).
-/

set_option autoImplicit false

namespace PeerStore.Query

/-! ## The order -/

/-- Whether one record comes before another in write-time order. -/
def WrittenBefore (ascending : Bool) (a b : Record) : Prop :=
  (if ascending then a.time < b.time else b.time < a.time)
    ∨ a.time = b.time ∧ Blob.before a.key b.key = true

section

variable {ascending : Bool} {a b c : Record}

theorem writtenNoLater_of_eq (h : a.time = b.time) :
    writtenNoLater ascending a b = !Blob.before b.key a.key := by
  rw [writtenNoLater, if_pos h]

theorem writtenNoLater_of_ne (h : a.time ≠ b.time) :
    writtenNoLater ascending a b = true ↔
      if ascending then a.time < b.time else b.time < a.time := by
  rw [writtenNoLater, if_neg h]
  cases ascending <;> simp

theorem writtenNoLater_total (ascending : Bool) (a b : Record) :
    (writtenNoLater ascending a b || writtenNoLater ascending b a) = true := by
  rw [Bool.or_eq_true]
  by_cases htime : a.time = b.time
  · rw [writtenNoLater_of_eq htime, writtenNoLater_of_eq htime.symm]
    cases hkey : Blob.before b.key a.key with
    | false => exact .inl rfl
    | true =>
        -- of two keys at most one comes before the other
        have hasymm : Blob.before a.key b.key = false := by
          rw [Bool.eq_false_iff]
          intro hback
          have hself := Blob.before_trans hkey hback
          rw [Blob.before_irrefl] at hself
          exact absurd hself Bool.false_ne_true
        exact .inr (by rw [hasymm]; rfl)
  · rw [writtenNoLater_of_ne htime, writtenNoLater_of_ne (Ne.symm htime)]
    cases ascending with
    | true =>
        simp only [if_true]
        omega
    | false =>
        simp only [Bool.false_eq_true, if_false]
        omega

/-- A key that does not come behind a second, which does not come behind a third, does not come
behind the third. -/
theorem not_before_trans {x y z : Blob} (hxy : Blob.before y x = false)
    (hyz : Blob.before z y = false) : Blob.before z x = false := by
  rw [Bool.eq_false_iff]
  intro hzx
  cases hyx : Blob.before x y with
  | true =>
      have hzy := Blob.before_trans hzx hyx
      rw [hyz] at hzy
      exact absurd hzy Bool.false_ne_true
  | false =>
      obtain rfl := Blob.before_connected hyx hxy
      rw [hyz] at hzx
      exact absurd hzx Bool.false_ne_true

theorem writtenNoLater_trans (hab : writtenNoLater ascending a b = true)
    (hbc : writtenNoLater ascending b c = true) : writtenNoLater ascending a c = true := by
  by_cases htime : a.time = b.time
  · by_cases htime' : b.time = c.time
    · rw [writtenNoLater_of_eq htime, Bool.not_eq_true'] at hab
      rw [writtenNoLater_of_eq htime', Bool.not_eq_true'] at hbc
      rw [writtenNoLater_of_eq (htime.trans htime'), Bool.not_eq_true']
      exact not_before_trans hab hbc
    · rw [writtenNoLater_of_ne htime'] at hbc
      rw [writtenNoLater_of_ne (by rwa [htime]), htime]
      exact hbc
  · rw [writtenNoLater_of_ne htime] at hab
    by_cases htime' : b.time = c.time
    · rw [writtenNoLater_of_ne (by rwa [← htime']), ← htime']
      exact hab
    · rw [writtenNoLater_of_ne htime'] at hbc
      cases ascending with
      | true =>
          simp only [if_true] at hab hbc
          have hac : a.time < c.time := Int.lt_trans hab hbc
          rw [writtenNoLater_of_ne (Int.ne_of_lt hac), if_pos rfl]
          exact hac
      | false =>
          simp only [Bool.false_eq_true, if_false] at hab hbc
          have hca : c.time < a.time := Int.lt_trans hbc hab
          rw [writtenNoLater_of_ne (Int.ne_of_gt hca), if_neg Bool.false_ne_true]
          exact hca

theorem pairwise_mergeSort_writtenNoLater (ascending : Bool) (records : List Record) :
    (records.mergeSort (writtenNoLater ascending)).Pairwise
      fun a b => writtenNoLater ascending a b = true := by
  apply List.pairwise_mergeSort
  · intro a b c hab hbc
    exact writtenNoLater_trans hab hbc
  · exact writtenNoLater_total ascending

/-- Of two records with different keys the one that comes no later comes before the other. -/
theorem writtenBefore_of_ne (hkey : a.key ≠ b.key) (h : writtenNoLater ascending a b = true) :
    WrittenBefore ascending a b := by
  by_cases htime : a.time = b.time
  · rw [writtenNoLater_of_eq htime, Bool.not_eq_true'] at h
    refine .inr ⟨htime, ?_⟩
    cases hbefore : Blob.before a.key b.key with
    | true => rfl
    | false => exact absurd (Blob.before_connected hbefore h) hkey
  · exact .inl ((writtenNoLater_of_ne htime).mp h)

end

/-! ## Plans -/

/-- The plan of a query for write-time order selects everything and sorts it. -/
theorem evaluate_writeTime (ascending : Bool) (records : List Record) :
    Plan.evaluate { writeTime := some ascending } records
      = records.mergeSort (writtenNoLater ascending) := by
  have haccepts : records.filter (Plan.accepts { writeTime := some ascending }) = records :=
    List.filter_eq_self.mpr fun _ _ => rfl
  rw [Plan.evaluate, haccepts]
  rfl

/-- **Write-time order loses no record, and orders records with different keys strictly.** -/
theorem pairwise_evaluate_writeTime (ascending : Bool) {records : List Record}
    (h : (records.map (·.key)).Nodup) :
    (Plan.evaluate { writeTime := some ascending } records).Perm records
      ∧ (Plan.evaluate { writeTime := some ascending } records).Pairwise
          (WrittenBefore ascending) := by
  rw [evaluate_writeTime]
  have hperm := List.mergeSort_perm records (writtenNoLater ascending)
  have hsorted := pairwise_mergeSort_writtenNoLater ascending records
  have hnodup : ((records.mergeSort (writtenNoLater ascending)).map (·.key)).Nodup :=
    (hperm.map _).nodup_iff.mpr h
  have hkeys : (records.mergeSort (writtenNoLater ascending)).Pairwise fun a b => a.key ≠ b.key :=
    List.pairwise_map.mp hnodup
  refine ⟨hperm, (hsorted.and hkeys).imp ?_⟩
  rintro a b ⟨hnoLater, hkey⟩
  exact writtenBefore_of_ne hkey hnoLater

/-! ## Texts -/

/-- **The keyword with the mark of a direction asks for write-time order**, if the limits admit a
text of its length with one clause. -/
theorem compile?_writeTime {c : Compiler} {text : String} {ascending : Bool}
    (htokens : tokenize text = [Keyword.writeTime.text, directionMark ascending])
    (hbytes : text.utf8ByteSize ≤ c.limits.queryBytes) (hclauses : 1 ≤ c.limits.queryClauses) :
    c.compile? text = .ok [.orderByWriteTime ascending] := by
  let phrase : Phrase := ⟨.writeTime, [directionMark ascending], .fixed rfl⟩
  have hreads : c.Reads (Context.ofText text) phrase.keyword phrase.args
      [.orderByWriteTime ascending] (Context.ofText text) := .writeTime ascending
  have hdenotes : c.Denotes (Context.ofText text) [phrase] [.orderByWriteTime ascending] :=
    .cons hreads (.nil _)
  exact Compiler.compile?_eq_ok_iff.mpr ⟨hbytes, [phrase], htokens, hclauses, hdenotes⟩

theorem plan?_writeTime (ascending : Bool) :
    plan? [.orderByWriteTime ascending] = .ok { writeTime := some ascending } := rfl

end PeerStore.Query
