import Mathlib
import PeerStore.Proofs.Query.WriteOrder
import PeerStore.Proofs.Table

/-!
# What plans give

A plan gives the records that it selects (`Plan.Selects`), sorted as it asks (`Plan.Sorted`), from
the offset of its limit on and as many as this admits. What is sorted does not depend on the limit,
so plans that differ in the limit only, each beginning where the one before it ended, give the
sorted records piece by piece (`flatMap_page_pages`). **`Plan.evaluate_sorts_and_pages`** is the
whole.
-/

set_option autoImplicit false

namespace PeerStore.Query

/-! ## Selection -/

/-- Whether a document satisfies a filter. -/
inductive Filter.Satisfied (doc : Option Json) : Filter → Prop where
  | leaf {p : Predicate} : p.holds doc = true → Satisfied doc (.leaf p)
  | all {parts : List Filter} : (∀ f ∈ parts, Satisfied doc f) → Satisfied doc (.all parts)
  | any {parts : List Filter} {f : Filter} :
      f ∈ parts → Satisfied doc f → Satisfied doc (.any parts)

section

variable (doc : Option Json)

mutual

theorem Filter.holds_iff (f : Filter) : f.holds (Predicate.holds doc) = true ↔ f.Satisfied doc := by
  cases f with
  | leaf p =>
      refine ⟨.leaf, fun h => ?_⟩
      cases h with
      | leaf hp => exact hp
  | all fs =>
      refine (Filter.holdAll_iff fs).trans ⟨.all, fun h => ?_⟩
      cases h with
      | all hfs => exact hfs
  | any fs =>
      refine (Filter.holdsAny_iff fs).trans ⟨fun ⟨f, hf, h⟩ => .any hf h, fun h => ?_⟩
      cases h with
      | any hf hsat => exact ⟨_, hf, hsat⟩

theorem Filter.holdAll_iff (fs : List Filter) :
    Filter.holdAll (Predicate.holds doc) fs = true ↔ ∀ f ∈ fs, f.Satisfied doc := by
  cases fs with
  | nil => exact iff_of_true rfl (List.forall_mem_nil _)
  | cons f fs =>
      rw [Filter.holdAll, Bool.and_eq_true_iff, Filter.holds_iff f, Filter.holdAll_iff fs,
        List.forall_mem_cons]

theorem Filter.holdsAny_iff (fs : List Filter) :
    Filter.holdsAny (Predicate.holds doc) fs = true ↔ ∃ f ∈ fs, f.Satisfied doc := by
  cases fs with
  | nil => exact iff_of_false Bool.false_ne_true (by simp)
  | cons f fs =>
      rw [Filter.holdsAny, Bool.or_eq_true_iff, Filter.holds_iff f, Filter.holdsAny_iff fs,
        List.exists_mem_cons_iff]

end

end

/-- Whether a plan asks for a record: by the prefix of its key, by its key, and by its document. -/
structure Plan.Selects (p : Plan) (r : Record) : Prop where
  keyPrefix : ∀ pfx, p.keyPrefix = some pfx → pfx <+: r.key
  inKeys : ∀ keys, p.inKeys = some keys → r.key ∈ keys.keys
  filter : ∀ f, p.filter = some f → f.Satisfied r.value.document?

namespace Plan

theorem selects_iff {p : Plan} {key : Blob} :
    p.selects key = true ↔
      (∀ pfx, p.keyPrefix = some pfx → pfx <+: key)
        ∧ ∀ keys, p.inKeys = some keys → key ∈ keys.keys := by
  rw [selects, Bool.and_eq_true_iff]
  refine and_congr ?_ ?_
  · cases p.keyPrefix <;> simp [Blob.startsWith]
  · cases p.inKeys <;> simp [Table.mem_keys_iff]

theorem accepts_eq (p : Plan) (r : Record) :
    p.accepts r = (p.selects r.key
      && p.filter.all fun f => f.holds (Predicate.holds r.value.document?)) := by
  rw [accepts]
  cases p.filter <;> rfl

theorem accepts_iff {p : Plan} {r : Record} : p.accepts r = true ↔ p.Selects r := by
  rw [accepts_eq, Bool.and_eq_true_iff, selects_iff, Option.all_eq_true]
  simp only [Filter.holds_iff]
  exact ⟨fun ⟨⟨hpfx, hkeys⟩, hf⟩ => ⟨hpfx, hkeys, hf⟩, fun h => ⟨⟨h.keyPrefix, h.inKeys⟩, h.filter⟩⟩

instance (p : Plan) : DecidablePred p.Selects := fun _ => decidable_of_iff _ accepts_iff

theorem filter_accepts (p : Plan) (records : List Record) :
    records.filter p.accepts = records.filter fun r => p.Selects r := by
  refine List.filter_congr fun r _ => ?_
  rw [Bool.eq_iff_iff, decide_eq_true_iff]
  exact accepts_iff

end Plan

/-! ## Order -/

/-- Whether the key of a record does not come behind that of another. -/
def KeyNoLater (a b : Record) : Prop := Blob.before b.key a.key = false

instance : DecidableRel KeyNoLater := fun _ _ => inferInstanceAs (Decidable (_ = false))

/-- Whether a list holds the records that a plan asks for, in the order that it asks for. -/
structure Plan.Sorted (p : Plan) (records sorted : List Record) : Prop where
  perm : sorted.Perm (records.filter fun r => p.Selects r)
  /-- By the time of the write, and by the key. -/
  byWriteTime : ∀ ascending, p.writeTime = some ascending → sorted.Pairwise fun a b =>
    (if ascending then a.time < b.time else b.time < a.time) ∨ a.time = b.time ∧ KeyNoLater a b
  /-- By fields, and by the key. -/
  byFields : p.writeTime = none → p.orderBy ≠ [] → sorted.Pairwise fun a b =>
    FieldsBefore p.orderBy a b ∨ Agree p.orderBy a b ∧ KeyNoLater a b
  /-- As the records came. -/
  asGiven : p.writeTime = none → p.orderBy = [] → sorted = records.filter fun r => p.Selects r

theorem pairwise_writtenNoLater (ascending : Bool) (records : List Record) :
    (records.mergeSort (writtenNoLater ascending)).Pairwise fun a b =>
      (if ascending then a.time < b.time else b.time < a.time)
        ∨ a.time = b.time ∧ KeyNoLater a b := by
  refine (pairwise_mergeSort_writtenNoLater ascending records).imp ?_
  intro a b h
  by_cases htime : a.time = b.time
  · rw [writtenNoLater_of_eq htime, Bool.not_eq_true'] at h
    exact .inr ⟨htime, h⟩
  · exact .inl ((writtenNoLater_of_ne htime).mp h)

/-- **A plan sorts what it selects as it asks**, if the records come in the order of their keys. -/
theorem Plan.sorted_sort (p : Plan) {records : List Record} (hkeys : records.Pairwise KeyNoLater) :
    p.Sorted records (p.sort (records.filter fun r => p.Selects r)) := by
  have hselected : (records.filter fun r => p.Selects r).Pairwise KeyNoLater := hkeys.filter _
  constructor
  case perm => exact p.perm_sort _
  case byWriteTime =>
    intro ascending htime
    rw [Plan.sort, htime]
    exact pairwise_writtenNoLater ascending _
  case byFields =>
    intro htime hfields
    rw [Plan.sort, htime]
    dsimp only
    rw [if_neg (by simpa using hfields)]
    exact pairwise_sortByFields p.orderBy hselected
  case asGiven =>
    intro htime hfields
    rw [Plan.sort, htime, hfields]
    rfl

/-! ## Pages -/

/-- Limits for pages of these sizes, one after the other. -/
def pages : (offset : Nat) → (sizes : List Nat) → List (Nat × Nat)
  | _, [] => []
  | offset, size :: sizes => (size, offset) :: pages (offset + size) sizes

/-- **Pages one after the other give what is sorted, piece by piece.** -/
theorem flatMap_page_pages (p : Plan) (records : List Record) (sizes : List Nat) (offset : Nat) :
    (pages offset sizes).flatMap (fun l => Plan.page { p with limit := some l } records)
      = (records.drop offset).take sizes.sum := by
  induction sizes generalizing offset with
  | nil => simp [pages]
  | cons size sizes ih =>
      calc (pages offset (size :: sizes)).flatMap
            (fun l => Plan.page { p with limit := some l } records)
          = (records.drop offset).take size
              ++ (pages (offset + size) sizes).flatMap
                  (fun l => Plan.page { p with limit := some l } records) := List.flatMap_cons
        _ = (records.drop offset).take size
              ++ (records.drop (offset + size)).take sizes.sum := by rw [ih]
        _ = (records.drop offset).take (size :: sizes).sum := by
            rw [List.sum_cons, List.take_add, List.drop_drop]

/-! ## The whole -/

/-- **What a plan gives**, if the records come in the order of their keys: a page of the records that
it selects, sorted as it asks, and all of them in pages one after the other. Values of fields are
ordered totally but for ties, by `ValueBefore`. -/
theorem Plan.evaluate_sorts_and_pages (p : Plan) {records : List Record}
    (hkeys : records.Pairwise KeyNoLater) :
    (∃ sorted : List Record,
      p.Sorted records sorted
        ∧ (∀ number offset, p.limit = some (number, offset) →
            p.evaluate records = (sorted.drop offset).take number)
        ∧ (p.limit = none → p.evaluate records = sorted)
        ∧ ∀ sizes : List Nat,
            (pages 0 sizes).flatMap (fun l => Plan.evaluate { p with limit := some l } records)
              = sorted.take sizes.sum)
      ∧ Std.TransCmp compareReadable
      ∧ ∀ a b : Readable, compareReadable a b = .lt ↔ ValueBefore a.1 b.1 := by
  refine ⟨⟨p.sort (records.filter fun r => p.Selects r), p.sorted_sort hkeys, ?_, ?_, ?_⟩,
    inferInstance, compareReadable_eq_lt_iff⟩
  · intro number offset hlimit
    rw [evaluate, p.filter_accepts, page, hlimit]
  · intro hlimit
    rw [evaluate, p.filter_accepts, page, hlimit]
  · intro sizes
    -- plans that differ in the limit only select and sort alike
    have hpages := flatMap_page_pages p (p.sort (records.filter p.accepts)) sizes 0
    rw [List.drop_zero, p.filter_accepts records] at hpages
    rw [← hpages, ← p.filter_accepts]
    rfl

/-- Records in the order of their keys, whose documents have a boolean, no field, and a string. -/
def mixedRecords : List Record :=
  [⟨⟨Blob.ofString "\x7b\"a\":true\x7d", 5, "self"⟩, [1]⟩,
    ⟨⟨Blob.ofString "\x7b\x7d", 4, "peer"⟩, [2]⟩,
    ⟨⟨Blob.ofString "\x7b\"a\":\"x\"\x7d", 3, "self"⟩, [3]⟩]

/-- The second page of one record, in the descending order of a field. -/
def secondPage : Plan := { orderBy := [("a", false)], limit := some (1, 1) }

set_option maxRecDepth 20000 in
/-- The string comes first, so the boolean is on the second page. -/
theorem Plan.evaluate_sorts_and_pages_of_mixedRecords :
    mixedRecords.Pairwise KeyNoLater
      ∧ (secondPage.evaluate mixedRecords).map (·.key) = [[1]]
      ∧ ∃ sorted, secondPage.Sorted mixedRecords sorted
          ∧ secondPage.evaluate mixedRecords = (sorted.drop 1).take 1 := by
  have hkeys : mixedRecords.Pairwise KeyNoLater := by decide
  have heval : (secondPage.evaluate mixedRecords).map (·.key) = [[1]] := by cbv
  obtain ⟨⟨sorted, hsorted, hlimit, -⟩, -⟩ := secondPage.evaluate_sorts_and_pages hkeys
  exact ⟨hkeys, heval, sorted, hsorted, hlimit 1 1 rfl⟩

end PeerStore.Query
