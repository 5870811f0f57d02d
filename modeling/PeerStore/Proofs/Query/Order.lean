import Mathlib.Data.List.Sort
import PeerStore.Proofs.Json
import PeerStore.Query.Evaluate

/-!
# The order of results

Values of fields are ordered by their kinds, and within the kinds of booleans, numbers and strings
by what they are (`ValueBefore`). This order is total but for ties, since no number in a document is
NaN (`compareReadable_eq`); hence so is the order of records by several fields, each in a direction
of its own (`transCmp_compareRecords`). The sort by fields is stable, so it gives records that agree
on all of them in the order in which they came (**`pairwise_sortByFields`**).
-/

set_option autoImplicit false

namespace PeerStore

/-! ## Stable sorting -/

/-- **Of elements that tie, a stable sort keeps the order.** -/
theorem pairwise_mergeSort_of_pairwise {α : Type} {le : α → α → Bool} {R : α → α → Prop}
    {l : List α}
    (htrans : ∀ a b c, le a b = true → le b c = true → le a c = true)
    (htotal : ∀ a b, (le a b || le b a) = true) (h : l.Pairwise R) :
    (l.mergeSort le).Pairwise fun a b => le a b = true ∧ (le b a = true → R a b) := by
  -- the elements are numbered, and the numbers break the ties
  have hsorted := List.pairwise_mergeSort (List.zipIdxLE_trans htrans)
    (List.zipIdxLE_total htotal) l.zipIdx
  have hperm := List.mergeSort_perm l.zipIdx (List.zipIdxLE le)
  have hnodup : ((l.zipIdx.mergeSort (List.zipIdxLE le)).map Prod.snd).Nodup := by
    rw [(hperm.map Prod.snd).nodup_iff, List.zipIdx_map_snd]
    exact List.nodup_range'
  rw [← List.mergeSort_zipIdx, List.pairwise_map]
  refine List.Pairwise.imp_of_mem ?_ (hsorted.and (List.pairwise_map.mp hnodup))
  rintro ⟨a, i⟩ ⟨b, j⟩ ha hb ⟨hle, hne⟩
  have hai := List.mem_zipIdx_iff_getElem?.mp (hperm.mem_iff.mp ha)
  have hbj := List.mem_zipIdx_iff_getElem?.mp (hperm.mem_iff.mp hb)
  obtain ⟨hi, hai⟩ := List.getElem?_eq_some_iff.mp hai
  obtain ⟨hj, hbj⟩ := List.getElem?_eq_some_iff.mp hbj
  simp only [List.zipIdxLE] at hle
  split at hle
  · rename_i hab
    refine ⟨hab, fun hba => ?_⟩
    rw [if_pos hba, decide_eq_true_iff] at hle
    have hR := List.pairwise_iff_getElem.mp h i j hi hj (lt_of_le_of_ne hle hne)
    rwa [hai, hbj] at hR
  · exact absurd hle Bool.false_ne_true

/-- An order of what a function makes of elements is an order of the elements. -/
theorem transCmp_comap {α β : Type} {cmp : β → β → Ordering} [Std.TransCmp cmp] (f : α → β) :
    Std.TransCmp fun a b => cmp (f a) (f b) where
  eq_swap := Std.OrientedCmp.eq_swap
  isLE_trans := Std.TransCmp.isLE_trans

namespace Query

/-! ## Values -/

/-- Whether a value of a field comes before another. -/
inductive ValueBefore : Option Json → Option Json → Prop where
  | kind {a b : Option Json} : rank a < rank b → ValueBefore a b
  | bool : ValueBefore (some (.bool false)) (some (.bool true))
  | num {x y : Double} : x.orderKey < y.orderKey → ValueBefore (some (.num x)) (some (.num y))
  | str {s t : String} : s < t → ValueBefore (some (.str s)) (some (.str t))

/-- A value of a field, or its absence, that is not NaN. -/
def Readable : Type := { v : Option Json // ∀ x, v = some (.num x) → x.isNaN = false }

/-- The number that values of one kind are ordered by first. -/
def numberKey : Option Json → Int
  | some (.bool b) => b.toNat
  | some (.num x) => x.orderKey
  | _ => 0

/-- The text that values of one kind are ordered by then. -/
def textKey : Option Json → String
  | some (.str s) => s
  | _ => ""

/-- The order by kind, number and text. -/
def compareKeys : Option Json → Option Json → Ordering :=
  compareLex (compareOn rank) (compareLex (compareOn numberKey) (compareOn textKey))

instance : Std.TransCmp compareKeys :=
  inferInstanceAs (Std.TransCmp
    (compareLex (compareOn rank) (compareLex (compareOn numberKey) (compareOn textKey))))

/-- The order of values that are not NaN. -/
def compareReadable (a b : Readable) : Ordering := compareValues a.1 b.1

theorem compareValues_num {x y : Double} (hx : x.isNaN = false) (hy : y.isNaN = false) :
    compareValues (some (.num x)) (some (.num y)) = compare x.orderKey y.orderKey := by
  rw [compareValues, Double.compare?, hx, hy]
  rfl

theorem compareReadable_eq (a b : Readable) : compareReadable a b = compareKeys a.1 b.1 := by
  obtain ⟨a, ha⟩ := a
  obtain ⟨b, hb⟩ := b
  rcases a with _ | (_ | x | x | x | x | x) <;> rcases b with _ | (_ | y | y | y | y | y)
  case some.bool.some.bool => cases x <;> cases y <;> rfl
  case some.num.some.num =>
    show _ = (compare x.orderKey y.orderKey).then .eq
    rw [Ordering.then_eq]
    exact compareValues_num (ha x rfl) (hb y rfl)
  -- strings are left, kinds that differ, and kinds with no more to tell values apart by
  all_goals rfl

/-- **Values that are not NaN are ordered totally, but for ties.** -/
instance : Std.TransCmp compareReadable := by
  have heq : compareReadable = fun a b => compareKeys a.1 b.1 := by
    funext a b
    exact compareReadable_eq a b
  rw [heq]
  exact transCmp_comap Subtype.val

/-- **What the comparison of values says.** -/
theorem compareValues_eq_lt_iff {a b : Option Json} (ha : ∀ x, a = some (.num x) → x.isNaN = false)
    (hb : ∀ x, b = some (.num x) → x.isNaN = false) :
    compareValues a b = .lt ↔ ValueBefore a b := by
  constructor
  · intro h
    unfold compareValues at h
    split at h
    case h_1 x y =>
      cases x with
      | true => cases y <;> contradiction
      | false =>
          cases y with
          | true => exact .bool
          | false => contradiction
    case h_2 x y =>
      rw [← compareValues, compareValues_num (ha x rfl) (hb y rfl)] at h
      exact .num (Int.compare_eq_lt.mp h)
    case h_3 s t => exact .str (compareOfLessAndEq_eq_lt.mp h)
    case h_4 => exact .kind (Nat.compare_eq_lt.mp h)
  · intro h
    cases h with
    | kind hrank =>
        have heq := compareReadable_eq ⟨a, ha⟩ ⟨b, hb⟩
        rw [compareKeys, compareLex, compareOn, Nat.compare_eq_lt.mpr hrank] at heq
        exact heq
    | bool => rfl
    | num hlt =>
        rw [compareValues_num (ha _ rfl) (hb _ rfl)]
        exact Int.compare_eq_lt.mpr hlt
    | str hlt => exact compareOfLessAndEq_eq_lt.mpr hlt

theorem compareReadable_eq_lt_iff (a b : Readable) :
    compareReadable a b = .lt ↔ ValueBefore a.1 b.1 :=
  compareValues_eq_lt_iff a.2 b.2

/-! ## Fields -/

/-- The value of a record in a field. -/
def valueOf (field : String) (r : Record) : Readable :=
  ⟨lookup? r.value.document? field, fun _ => isNaN_of_lookup?⟩

/-- The order of records by one field. -/
def compareField (field : String) (ascending : Bool) (a b : Record) : Ordering :=
  let o := compareReadable (valueOf field a) (valueOf field b)
  if ascending then o else o.swap

/-- The order of records by several fields. -/
def compareRecords (fields : List (String × Bool)) (a b : Record) : Ordering :=
  compareBy fields a.value.document? b.value.document?

instance (field : String) (ascending : Bool) : Std.TransCmp (compareField field ascending) := by
  have hvalues : Std.TransCmp fun a b => compareReadable (valueOf field a) (valueOf field b) :=
    transCmp_comap (valueOf field)
  cases ascending with
  | true => exact hvalues
  | false =>
      have hswap : compareField field false
          = fun a b => compareReadable (valueOf field b) (valueOf field a) := by
        funext a b
        exact Std.OrientedCmp.eq_swap.symm
      rw [hswap]
      exact Std.TransCmp.opposite

theorem compareRecords_cons (field : String) (ascending : Bool) (fields : List (String × Bool)) :
    compareRecords ((field, ascending) :: fields)
      = compareLex (compareField field ascending) (compareRecords fields) := by
  funext a b
  rw [compareLex, compareRecords, compareBy]
  split
  · rename_i htie
    have hfield : compareField field ascending a b = .eq := htie
    rw [hfield]
    rfl
  · rename_i hdecides
    have hfield : compareField field ascending a b ≠ .eq := hdecides
    show compareField field ascending a b = _
    cases hcase : compareField field ascending a b with
    | eq => exact absurd hcase hfield
    | lt => rfl
    | gt => rfl

/-- **Records are ordered totally by fields, but for ties.** -/
theorem transCmp_compareRecords (fields : List (String × Bool)) :
    Std.TransCmp (compareRecords fields) := by
  induction fields with
  | nil => exact { eq_swap := rfl, isLE_trans := fun _ _ => rfl }
  | cons f fields ih =>
      rw [compareRecords_cons]
      infer_instance

/-- Whether one record comes before another by a field. -/
def FieldBefore (field : String) (ascending : Bool) (a b : Record) : Prop :=
  if ascending then ValueBefore (valueOf field a).1 (valueOf field b).1
  else ValueBefore (valueOf field b).1 (valueOf field a).1

/-- Whether no field tells two records apart. -/
def Agree (fields : List (String × Bool)) (a b : Record) : Prop :=
  ∀ f ∈ fields, ¬FieldBefore f.1 f.2 a b ∧ ¬FieldBefore f.1 f.2 b a

/-- Whether one record comes before another by fields: by one of them, with no difference in those
in front of it. -/
def FieldsBefore (fields : List (String × Bool)) (a b : Record) : Prop :=
  ∃ front field ascending back, fields = front ++ (field, ascending) :: back
    ∧ Agree front a b ∧ FieldBefore field ascending a b

theorem compareField_eq_lt_iff {field : String} {ascending : Bool} {a b : Record} :
    compareField field ascending a b = .lt ↔ FieldBefore field ascending a b := by
  cases ascending with
  | true => exact compareReadable_eq_lt_iff _ _
  | false =>
      have hswap : compareField field false a b
          = compareReadable (valueOf field b) (valueOf field a) :=
        Std.OrientedCmp.eq_swap.symm
      rw [hswap]
      exact compareReadable_eq_lt_iff _ _

theorem compareField_eq_eq_iff {field : String} {ascending : Bool} {a b : Record} :
    compareField field ascending a b = .eq ↔
      ¬FieldBefore field ascending a b ∧ ¬FieldBefore field ascending b a := by
  have hswap : compareField field ascending b a = (compareField field ascending a b).swap :=
    Std.OrientedCmp.eq_swap
  rw [← compareField_eq_lt_iff, ← compareField_eq_lt_iff, hswap]
  cases compareField field ascending a b <;> simp

theorem agree_cons_iff {field : String} {ascending : Bool} {fields : List (String × Bool)}
    {a b : Record} :
    Agree ((field, ascending) :: fields) a b ↔
      compareField field ascending a b = .eq ∧ Agree fields a b := by
  rw [compareField_eq_eq_iff]
  exact List.forall_mem_cons

theorem fieldsBefore_cons_iff {field : String} {ascending : Bool} {fields : List (String × Bool)}
    {a b : Record} :
    FieldsBefore ((field, ascending) :: fields) a b ↔
      compareField field ascending a b = .lt
        ∨ compareField field ascending a b = .eq ∧ FieldsBefore fields a b := by
  constructor
  · rintro ⟨front, field', ascending', back, heq, hagree, hbefore⟩
    cases front with
    | nil =>
        obtain ⟨⟨rfl, rfl⟩, rfl⟩ := by simpa using heq
        exact .inl (compareField_eq_lt_iff.mpr hbefore)
    | cons f front =>
        obtain ⟨rfl, rfl⟩ := by simpa using heq
        obtain ⟨hfield, hfront⟩ := agree_cons_iff.mp hagree
        exact .inr ⟨hfield, front, field', ascending', back, rfl, hfront, hbefore⟩
  · rintro (hfirst | ⟨hfirst, front, field', ascending', back, rfl, hagree, hbefore⟩)
    · exact ⟨[], field, ascending, fields, rfl, List.forall_mem_nil _,
        compareField_eq_lt_iff.mp hfirst⟩
    · exact ⟨(field, ascending) :: front, field', ascending', back, rfl,
        agree_cons_iff.mpr ⟨hfirst, hagree⟩, hbefore⟩

/-- **What the comparison by fields says.** -/
theorem compareRecords_iff (fields : List (String × Bool)) (a b : Record) :
    (compareRecords fields a b = .lt ↔ FieldsBefore fields a b)
      ∧ (compareRecords fields a b = .eq ↔ Agree fields a b) := by
  induction fields with
  | nil =>
      refine ⟨⟨nofun, ?_⟩, ⟨fun _ => List.forall_mem_nil _, fun _ => rfl⟩⟩
      rintro ⟨front, field, ascending, back, heq, -⟩
      simp at heq
  | cons f fields ih =>
      obtain ⟨field, ascending⟩ := f
      rw [compareRecords_cons, compareLex, fieldsBefore_cons_iff, agree_cons_iff, ← ih.1, ← ih.2]
      cases compareField field ascending a b <;> simp

/-! ## Sorting -/

theorem sortByFields_eq (fields : List (String × Bool)) (records : List Record) :
    sortByFields fields records
      = records.mergeSort fun a b => compareRecords fields a b != .gt := by
  have hdocs : ∀ d ∈ records.map fun r => (r.value.document?, r), d.1 = d.2.value.document? := by
    intro d hd
    obtain ⟨r, -, rfl⟩ := List.mem_map.mp hd
    rfl
  rw [sortByFields, List.map_mergeSort, List.map_map]
  · exact congrArg (List.mergeSort · _) (List.map_id _)
  · intro a ha b hb
    rw [hdocs a ha, hdocs b hb]
    rfl

theorem perm_sortByFields (fields : List (String × Bool)) (records : List Record) :
    (sortByFields fields records).Perm records := by
  rw [sortByFields_eq]
  exact List.mergeSort_perm _ _

/-- A plan loses no record, and adds none, in sorting. -/
theorem Plan.perm_sort (p : Plan) (records : List Record) : (p.sort records).Perm records := by
  unfold Plan.sort
  split
  · exact List.mergeSort_perm _ _
  · split
    · exact .refl _
    · exact perm_sortByFields _ _

/-- **Records are sorted by fields, and those that agree on all fields come in the order in which
they came.** -/
theorem pairwise_sortByFields (fields : List (String × Bool)) {records : List Record}
    {R : Record → Record → Prop} (h : records.Pairwise R) :
    (sortByFields fields records).Pairwise fun a b =>
      FieldsBefore fields a b ∨ Agree fields a b ∧ R a b := by
  have hcmp := transCmp_compareRecords fields
  have hle : ∀ a b, (compareRecords fields a b != .gt) = (compareRecords fields a b).isLE := by
    intro a b
    cases compareRecords fields a b <;> rfl
  have htrans : ∀ a b c, (compareRecords fields a b).isLE = true →
      (compareRecords fields b c).isLE = true → (compareRecords fields a c).isLE = true :=
    fun _ _ _ => Std.TransCmp.isLE_trans
  have hswap : ∀ a b, compareRecords fields b a = (compareRecords fields a b).swap :=
    fun _ _ => Std.OrientedCmp.eq_swap
  have htotal : ∀ a b,
      ((compareRecords fields a b).isLE || (compareRecords fields b a).isLE) = true := by
    intro a b
    rw [hswap a b]
    cases compareRecords fields a b <;> rfl
  rw [sortByFields_eq]
  simp only [hle]
  refine (pairwise_mergeSort_of_pairwise htrans htotal h).imp ?_
  rintro a b ⟨hab, hties⟩
  rw [hswap a b] at hties
  cases hcase : compareRecords fields a b with
  | lt => exact .inl ((compareRecords_iff fields a b).1.mp hcase)
  | eq => exact .inr ⟨(compareRecords_iff fields a b).2.mp hcase, hties (by rw [hcase]; rfl)⟩
  | gt =>
      rw [hcase] at hab
      contradiction

end Query

end PeerStore
