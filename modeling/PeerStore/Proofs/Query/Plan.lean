import Mathlib.Data.List.Basic
import PeerStore.Proofs.Query.Expression
import PeerStore.Query.Plan

/-!
# Clauses that combine

Clauses make a plan if no modifier is given twice that may be given once (`GivenOnce`), write-time
order stands with nothing that it does not combine with (`WriteTimeAlone`), and the filter parts are
an expression. `plan?_of_repeated`, `plan?_of_combined` and `plan?_of_alone` say what the plan is in
each of the cases. All of it depends on the `gist` of a query only, which keeps the order of clauses
of one kind and forgets how kinds are mixed (**`plans_what_combines`**).
-/

set_option autoImplicit false

namespace PeerStore.Query

variable {α : Type}

/-! ## Kinds of clauses -/

/-- The kind of a clause. All filter parts are of one kind; the other kinds are modifiers. -/
inductive Kind where
  | part
  | orderBy
  /-- A modifier that may be given once. -/
  | single (what : Single)
  | device
  | index
  deriving DecidableEq, Repr

namespace Clause

def kind : Clause → Kind
  | part _ => .part
  | orderBy _ _ => .orderBy
  | orderByWriteTime _ => .single .writeTime
  | limit _ _ => .single .limit
  | keyPrefix _ => .single .keyPrefix
  | inKeys _ => .single .inKeys
  | deviceId _ => .device
  | suggestIndex _ => .index

/-- The direction of a clause that orders by write time. -/
def writeTime? : Clause → Option Bool
  | orderByWriteTime ascending => some ascending
  | _ => none

/-- The number of results that a clause keeps, and that it skips. -/
def limit? : Clause → Option (Nat × Nat)
  | limit number offset => some (number, offset)
  | _ => none

/-- The key prefix that a clause asks for. -/
def keyPrefix? : Clause → Option Blob
  | keyPrefix pfx => some pfx
  | _ => none

/-- The keys that a clause asks for. -/
def keys? : Clause → Option (KeySet Blob)
  | inKeys keys => some keys
  | _ => none

/-- The hint of a clause. -/
def index? : Clause → Option String
  | suggestIndex index => some index
  | _ => none

end Clause

/-- Whether a function gives something for the clauses of one kind, and for no other. -/
def Selects (f : Clause → Option α) (k : Kind) : Prop := ∀ c, (f c).isSome = decide (c.kind = k)

theorem selects_part : Selects Clause.part? .part := by
  intro c
  cases c <;> rfl

theorem selects_ordering : Selects Clause.ordering? .orderBy := by
  intro c
  cases c <;> rfl

theorem selects_writeTime : Selects Clause.writeTime? (.single .writeTime) := by
  intro c
  cases c <;> rfl

theorem selects_limit : Selects Clause.limit? (.single .limit) := by
  intro c
  cases c <;> rfl

theorem selects_keyPrefix : Selects Clause.keyPrefix? (.single .keyPrefix) := by
  intro c
  cases c <;> rfl

theorem selects_keys : Selects Clause.keys? (.single .inKeys) := by
  intro c
  cases c <;> rfl

theorem selects_index : Selects Clause.index? .index := by
  intro c
  cases c <;> rfl

namespace Selects

variable {f : Clause → Option α} {k : Kind} (h : Selects f k)
include h

theorem eq_none {c : Clause} (hc : c.kind ≠ k) : f c = none := by
  rw [← Option.isNone_iff_eq_none, ← Option.not_isSome, h c, decide_eq_false hc]
  rfl

theorem length_filterMap (q : Query) :
    (q.filterMap f).length = q.countP fun c => c.kind = k := by
  rw [List.length_filterMap_eq_countP]
  exact List.countP_congr fun c _ => by rw [h c]

theorem filterMap_eq_nil_iff (q : Query) : q.filterMap f = [] ↔ ∀ c ∈ q, c.kind ≠ k := by
  rw [← List.length_eq_zero_iff, h.length_filterMap, List.countP_eq_zero]
  simp only [decide_eq_true_eq, Ne]

/-- What clauses of one kind give does not change if a clause moves past clauses of other kinds. -/
theorem filterMap_move (front : Query) {c : Clause} {between : Query} (back : Query)
    (hother : ∀ d ∈ between, d.kind ≠ c.kind) :
    (front ++ c :: (between ++ back)).filterMap f
      = (front ++ (between ++ c :: back)).filterMap f := by
  have hmoved : (c :: between).filterMap f = (between ++ [c]).filterMap f := by
    by_cases hc : c.kind = k
    · -- the clauses between give nothing
      have hnil : between.filterMap f = [] :=
        (h.filterMap_eq_nil_iff between).mpr fun d hd => hc ▸ hother d hd
      rw [List.filterMap_append, hnil, List.nil_append, ← List.singleton_append,
        List.filterMap_append, hnil, List.append_nil]
    · rw [List.filterMap_append, List.filterMap_cons_none (h.eq_none hc),
        List.filterMap_cons_none (h.eq_none hc), List.filterMap_nil, List.append_nil]
  calc (front ++ c :: (between ++ back)).filterMap f
      = front.filterMap f ++ ((c :: between).filterMap f ++ back.filterMap f) := by
        rw [List.filterMap_append, ← List.cons_append, List.filterMap_append]
    _ = front.filterMap f ++ ((between ++ [c]).filterMap f ++ back.filterMap f) := by rw [hmoved]
    _ = (front ++ (between ++ c :: back)).filterMap f := by
        simp only [← List.filterMap_append, List.append_assoc, List.singleton_append]

end Selects

/-! ## The gist of a query -/

/-- What a plan is made of: the clauses of each kind by themselves, and of the hints the last. -/
structure Gist where
  parts : List FilterPart
  orderings : List (String × Bool)
  writeTimes : List Bool
  limits : List (Nat × Nat)
  keyPrefixes : List Blob
  keySets : List (KeySet Blob)
  index : Option String

/-- The gist of a query. -/
def gist (q : Query) : Gist where
  parts := parts q
  orderings := orderings q
  writeTimes := q.filterMap Clause.writeTime?
  limits := q.filterMap Clause.limit?
  keyPrefixes := q.filterMap Clause.keyPrefix?
  keySets := q.filterMap Clause.keys?
  index := (q.filterMap Clause.index?).getLast?

namespace Gist

/-- How often a modifier is given that may be given once. -/
def times (g : Gist) : Single → Nat
  | .writeTime => g.writeTimes.length
  | .limit => g.limits.length
  | .keyPrefix => g.keyPrefixes.length
  | .inKeys => g.keySets.length

/-- The plan of a gist, with the filter that its parts make. -/
def plan (g : Gist) (filter : Option Filter) : Plan where
  filter
  orderBy := g.orderings
  writeTime := g.writeTimes.getLast?
  limit := g.limits.getLast?
  keyPrefix := g.keyPrefixes.getLast?
  inKeys := g.keySets.getLast?
  index := g.index

end Gist

theorem times_gist (q : Query) (what : Single) :
    (gist q).times what = q.countP fun c => c.kind = .single what := by
  cases what with
  | writeTime => exact selects_writeTime.length_filterMap q
  | limit => exact selects_limit.length_filterMap q
  | keyPrefix => exact selects_keyPrefix.length_filterMap q
  | inKeys => exact selects_keys.length_filterMap q

/-- A clause that moves past clauses of other kinds leaves the gist as it is. -/
theorem gist_move (front : Query) {c : Clause} {between : Query} (back : Query)
    (hother : ∀ d ∈ between, d.kind ≠ c.kind) :
    gist (front ++ c :: (between ++ back)) = gist (front ++ (between ++ c :: back)) := by
  simp only [gist, parts, orderings, selects_part.filterMap_move front back hother,
    selects_ordering.filterMap_move front back hother,
    selects_writeTime.filterMap_move front back hother,
    selects_limit.filterMap_move front back hother,
    selects_keyPrefix.filterMap_move front back hother,
    selects_keys.filterMap_move front back hother, selects_index.filterMap_move front back hother]

/-! ## Conditions -/

/-- Whether no modifier is given twice that may be given once. -/
def GivenOnce (q : Query) : Prop := ∀ what, q.countP (fun c => c.kind = .single what) ≤ 1

/-- Whether write-time order, if it is asked for, stands with no filter part, no field order and no
hint. -/
def WriteTimeAlone (q : Query) : Prop :=
  (∃ c ∈ q, c.kind = .single .writeTime) →
    ∀ c ∈ q, c.kind ≠ .part ∧ c.kind ≠ .orderBy ∧ c.kind ≠ .index

theorem givenOnce_iff {q : Query} : GivenOnce q ↔ ∀ what, (gist q).times what ≤ 1 := by
  simp only [GivenOnce, times_gist]

theorem writeTimeAlone_iff {q : Query} :
    WriteTimeAlone q ↔ ((gist q).writeTimes ≠ [] →
      (gist q).parts = [] ∧ (gist q).orderings = [] ∧ (gist q).index = none) := by
  have hwriteTime : (gist q).writeTimes ≠ [] ↔ ∃ c ∈ q, c.kind = .single .writeTime := by
    rw [Ne, gist, selects_writeTime.filterMap_eq_nil_iff]
    simp
  have hindex : (gist q).index = none ↔ ∀ c ∈ q, c.kind ≠ .index := by
    rw [gist, List.getLast?_eq_none_iff, selects_index.filterMap_eq_nil_iff]
  rw [hwriteTime, hindex, gist, parts, orderings, selects_part.filterMap_eq_nil_iff,
    selects_ordering.filterMap_eq_nil_iff, WriteTimeAlone]
  refine imp_congr_right fun _ => ?_
  simp only [forall_and]

/-! ## Clauses one after the other -/

namespace Plan

/-- The plan with what a clause asks for, in place of what was asked before. -/
def set (p : Plan) : Clause → Plan
  | .part _ | .orderBy _ _ | .deviceId _ => p
  | .orderByWriteTime ascending => { p with writeTime := some ascending }
  | .limit number offset => { p with limit := some (number, offset) }
  | .keyPrefix pfx => { p with keyPrefix := some pfx }
  | .inKeys keys => { p with inKeys := some keys }
  | .suggestIndex index => { p with index := some index }

/-- Whether a plan has a modifier already. -/
def has (p : Plan) : Single → Bool
  | .writeTime => p.writeTime.isSome
  | .limit => p.limit.isSome
  | .keyPrefix => p.keyPrefix.isSome
  | .inKeys => p.inKeys.isSome

theorem add_of_has {p : Plan} {c : Clause} {what : Single} (hkind : c.kind = .single what)
    (h : p.has what = true) : p.add c = .error (.repeated what) := by
  cases c <;> cases hkind <;> exact if_pos h

theorem add_of_not_has {p : Plan} {c : Clause}
    (h : ∀ what, c.kind = .single what → p.has what = false) : p.add c = .ok (p.set c) := by
  cases c with
  | part | orderBy | deviceId | suggestIndex => rfl
  | orderByWriteTime | limit | keyPrefix | inKeys =>
      exact if_neg (Bool.not_eq_true _ ▸ h _ rfl)

theorem has_set (p : Plan) (c : Clause) (what : Single) :
    (p.set c).has what = (p.has what || decide (c.kind = .single what)) := by
  cases c <;> cases what <;> simp [set, has, Clause.kind]

/-- How often a plan and the clauses that it is to take give a modifier. -/
def timesWith (p : Plan) (q : Query) (what : Single) : Nat :=
  (p.has what).toNat + q.countP fun c => c.kind = .single what

/-- Taking a clause that gives nothing again moves it from the clauses into the plan. -/
theorem timesWith_set {p : Plan} {c : Clause}
    (h : ∀ what, c.kind = .single what → p.has what = false) (q : Query) (what : Single) :
    (p.set c).timesWith q what = p.timesWith (c :: q) what := by
  rw [timesWith, timesWith, has_set, List.countP_cons]
  by_cases hc : c.kind = .single what
  · simp [hc, h what hc, Nat.add_comm]
  · simp [hc]

/-- Clauses that give nothing twice are taken one after the other, and otherwise the first that
gives something again is refused. -/
theorem addAll_eq (p : Plan) (q : Query) :
    ((∀ what, p.timesWith q what ≤ 1) → p.addAll q = .ok (q.foldl set p))
      ∧ (¬(∀ what, p.timesWith q what ≤ 1) → ∃ what, p.addAll q = .error (.repeated what)) := by
  induction q generalizing p with
  | nil =>
      refine ⟨fun _ => rfl, fun h => absurd (fun what => ?_) h⟩
      simp only [timesWith, List.countP_nil, Nat.add_zero]
      exact Bool.toNat_le _
  | cons c cs ih =>
      by_cases hagain : ∃ what, c.kind = .single what ∧ p.has what = true
      · obtain ⟨what, hkind, hhas⟩ := hagain
        have htwice : 2 ≤ p.timesWith (c :: cs) what := by
          simp [timesWith, hkind, hhas]
          omega
        refine ⟨fun h => absurd (h what) (by omega), fun _ => ⟨what, ?_⟩⟩
        simp only [addAll, add_of_has hkind hhas]
      · have hnew : ∀ what, c.kind = .single what → p.has what = false := fun what hkind =>
          Bool.eq_false_iff.mpr fun hhas => hagain ⟨what, hkind, hhas⟩
        have hrest := ih (p.set c)
        simp only [timesWith_set hnew] at hrest
        simp only [addAll, add_of_not_has hnew, List.foldl_cons]
        exact hrest

/-- Of what clauses ask for by turns, the last stays. -/
theorem foldl_set {get : Plan → Option α} {f : Clause → Option α}
    (hset : ∀ p c, get (p.set c) = (f c).or (get p)) (p : Plan) (q : Query) :
    get (q.foldl set p) = (q.filterMap f).getLast?.or (get p) := by
  induction q generalizing p with
  | nil => rfl
  | cons c cs ih =>
      rw [List.foldl_cons, ih, hset]
      cases hc : f c with
      | none => rw [List.filterMap_cons_none hc, Option.none_or]
      | some a =>
          rw [List.filterMap_cons_some hc, List.getLast?_cons]
          cases (cs.filterMap f).getLast? <;> rfl

/-- What clauses leave in a plan is what the plan of their gist has, the filter and the field order
apart. -/
theorem foldl_set_empty (q : Query) (filter : Option Filter) :
    { q.foldl set {} with filter, orderBy := orderings q } = (gist q).plan filter := by
  have hlast {α : Type} (get : Plan → Option α) (f : Clause → Option α)
      (hset : ∀ p c, get (p.set c) = (f c).or (get p)) (hnone : get {} = none) :
      get (q.foldl set {}) = (q.filterMap f).getLast? := by
    rw [foldl_set hset, hnone, Option.or_none]
  have hwriteTime := hlast Plan.writeTime Clause.writeTime?
    (fun p c => by cases c <;> rfl) rfl
  have hlimit := hlast Plan.limit Clause.limit? (fun p c => by cases c <;> rfl) rfl
  have hkeyPrefix := hlast Plan.keyPrefix Clause.keyPrefix?
    (fun p c => by cases c <;> rfl) rfl
  have hkeys := hlast Plan.inKeys Clause.keys? (fun p c => by cases c <;> rfl) rfl
  have hindex := hlast Plan.index Clause.index? (fun p c => by cases c <;> rfl) rfl
  simp only [Gist.plan, gist, hwriteTime, hlimit, hkeyPrefix, hkeys, hindex]

end Plan

/-! ## Plans -/

section

variable {q : Query}

/-- A modifier that is given twice is refused where it is given again. -/
theorem plan?_of_repeated (h : ¬GivenOnce q) : ∃ what, plan? q = .error (.repeated what) := by
  have htwice : ¬∀ what, Plan.timesWith {} q what ≤ 1 := fun honce =>
    h fun what => Nat.le_trans (Nat.le_add_left _ _) (honce what)
  obtain ⟨what, hwhat⟩ := (Plan.addAll_eq {} q).2 htwice
  exact ⟨what, by rw [plan?, hwhat]⟩

theorem addAll_of_givenOnce (h : GivenOnce q) :
    Plan.addAll {} q = .ok (q.foldl Plan.set {}) := by
  refine (Plan.addAll_eq {} q).1 fun what => ?_
  have hnone : Plan.has {} what = false := by cases what <;> rfl
  rw [Plan.timesWith, hnone, Bool.toNat_false, Nat.zero_add]
  exact h what

/-- What is looked at when all clauses are taken is whether write-time order stands alone. -/
theorem combined_iff :
    ((q.foldl Plan.set {}).writeTime.isSome && (!(parts q).isEmpty || !(orderings q).isEmpty
      || (q.foldl Plan.set {}).index.isSome)) = true ↔ ¬WriteTimeAlone q := by
  have hplan := Plan.foldl_set_empty q none
  have hwriteTime : (q.foldl Plan.set {}).writeTime = (gist q).writeTimes.getLast? :=
    congrArg Plan.writeTime hplan
  have hindex : (q.foldl Plan.set {}).index = (gist q).index := congrArg Plan.index hplan
  rw [writeTimeAlone_iff, hwriteTime, hindex]
  show _ ↔ ¬(_ → parts q = [] ∧ orderings q = [] ∧ _)
  simp only [Bool.and_eq_true, Bool.or_eq_true, Bool.not_eq_true', List.isEmpty_eq_false_iff,
    Option.isSome_iff_ne_none, Ne, List.getLast?_eq_none_iff]
  tauto

theorem plan?_of_combined (h : GivenOnce q) (hcombined : ¬WriteTimeAlone q) :
    plan? q = .error .writeTimeCombined := by
  simp only [plan?, addAll_of_givenOnce h]
  exact if_pos (combined_iff.mpr hcombined)

/-- Clauses that combine make the plan of their gist, if their filter parts make a filter. -/
theorem plan?_of_alone (h : GivenOnce q) (halone : WriteTimeAlone q) :
    plan? q = match Filter.ofParts? (parts q) with
      | .error e => .error (.filter e)
      | .ok filter => .ok ((gist q).plan filter) := by
  simp only [plan?, addAll_of_givenOnce h, ← Plan.foldl_set_empty q]
  exact if_neg fun hcombined => combined_iff.mp hcombined halone

end

/-! ## Outcomes -/

/-- Whether two outcomes are the same plan, or failures of one kind. -/
inductive Alike : Except PlanError Plan → Except PlanError Plan → Prop where
  | plan (p : Plan) : Alike (.ok p) (.ok p)
  | failure {e e' : PlanError} : e.status.code = e'.status.code → Alike (.error e) (.error e')

theorem Alike.refl (r : Except PlanError Plan) : Alike r r := by
  cases r with
  | ok p => exact .plan p
  | error e => exact .failure rfl

theorem PlanError.status_repeated (what : Single) :
    ∃ why, (PlanError.repeated what).status = .invalidArgument why := by
  cases what <;> exact ⟨_, rfl⟩

/-- **A plan depends on the gist of its query only.** -/
theorem alike_of_gist {q q' : Query} (h : gist q = gist q') : Alike (plan? q) (plan? q') := by
  have hparts : parts q = parts q' := congrArg Gist.parts h
  have hgivenOnce : GivenOnce q ↔ GivenOnce q' := by rw [givenOnce_iff, h, givenOnce_iff]
  have halone : WriteTimeAlone q ↔ WriteTimeAlone q' := by
    rw [writeTimeAlone_iff, h, writeTimeAlone_iff]
  by_cases honce : GivenOnce q
  · by_cases hq : WriteTimeAlone q
    · rw [plan?_of_alone honce hq, plan?_of_alone (hgivenOnce.mp honce) (halone.mp hq), h, hparts]
      exact .refl _
    · rw [plan?_of_combined honce hq,
        plan?_of_combined (hgivenOnce.mp honce) (fun hq' => hq (halone.mpr hq'))]
      exact .refl _
  · -- which modifier is found to be repeated may differ, but not that one is
    obtain ⟨what, hwhat⟩ := plan?_of_repeated honce
    obtain ⟨what', hwhat'⟩ := plan?_of_repeated fun honce' => honce (hgivenOnce.mpr honce')
    obtain ⟨why, hwhy⟩ := PlanError.status_repeated what
    obtain ⟨why', hwhy'⟩ := PlanError.status_repeated what'
    rw [hwhat, hwhat']
    exact .failure (by rw [hwhy, hwhy']; rfl)

theorem isOk_ofParts?_iff {ps : List FilterPart} :
    (∃ filter, Filter.ofParts? ps = .ok filter) ↔ ps = [] ∨ ∃ e : Expression, e.parts = ps := by
  constructor
  · rintro ⟨filter, hfilter⟩
    cases filter with
    | none => exact .inl (Filter.ofParts?_eq_ok_none_iff.mp hfilter)
    | some f =>
        obtain ⟨e, he, -⟩ := Filter.ofParts?_eq_ok_some_iff.mp hfilter
        exact .inr ⟨e, he⟩
  · rintro (hnil | ⟨e, he⟩)
    · exact ⟨none, Filter.ofParts?_eq_ok_none_iff.mpr hnil⟩
    · exact ⟨some e.filter, Filter.ofParts?_eq_ok_some_iff.mpr ⟨e, he, rfl⟩⟩

/-- All that a query can come to: it repeats a modifier, it combines what does not combine, its
filter parts are no expression, or it has a plan. -/
inductive Planned (q : Query) : Except PlanError Plan → Prop where
  | repeated (what : Single) : ¬GivenOnce q → Planned q (.error (.repeated what))
  | combined : GivenOnce q → ¬WriteTimeAlone q → Planned q (.error .writeTimeCombined)
  | filter {e : FilterError} : GivenOnce q → WriteTimeAlone q →
      Filter.ofParts? (parts q) = .error e → Planned q (.error (.filter e))
  | plan {filter : Option Filter} : GivenOnce q → WriteTimeAlone q →
      Filter.ofParts? (parts q) = .ok filter → Planned q (.ok ((gist q).plan filter))

theorem planned (q : Query) : Planned q (plan? q) := by
  by_cases honce : GivenOnce q
  · by_cases halone : WriteTimeAlone q
    · rw [plan?_of_alone honce halone]
      cases hfilter : Filter.ofParts? (parts q) with
      | error e => exact .filter honce halone hfilter
      | ok filter => exact .plan honce halone hfilter
    · rw [plan?_of_combined honce halone]
      exact .combined honce halone
  · obtain ⟨what, hwhat⟩ := plan?_of_repeated honce
    rw [hwhat]
    exact .repeated what honce

/-- What has a plan combines, and the plan is that of its gist. -/
theorem eq_plan_of_plan? {q : Query} {p : Plan} (h : plan? q = .ok p) :
    GivenOnce q ∧ ∃ filter, Filter.ofParts? (parts q) = .ok filter ∧ p = (gist q).plan filter := by
  have hplanned := planned q
  rw [h] at hplanned
  cases hplanned with
  | plan honce halone hfilter => exact ⟨honce, _, hfilter, rfl⟩

/-- **Clauses make a plan exactly if they combine.** A query has a plan if and only if it gives no
modifier twice that may be given once, its write-time order stands alone, and its filter parts are
none or an expression. It fails as not supported exactly if only the second is amiss, or the second
and the third, and as an invalid argument in every other case. The plan has what the clauses of each
kind ask for. Queries of one gist come to the same plan or to failures of one kind, and so do
queries in which a clause has moved past clauses of other kinds. -/
theorem plans_what_combines :
    (∀ q : Query,
      ((∃ p, plan? q = .ok p) ↔
        GivenOnce q ∧ WriteTimeAlone q ∧ (parts q = [] ∨ ∃ e : Expression, e.parts = parts q))
      ∧ ((∃ e what, plan? q = .error e ∧ e.status = .notSupported what) ↔
          GivenOnce q ∧ ¬WriteTimeAlone q)
      ∧ ((∃ e why, plan? q = .error e ∧ e.status = .invalidArgument why) ↔
          ¬GivenOnce q ∨ WriteTimeAlone q ∧
            ¬(parts q = [] ∨ ∃ e : Expression, e.parts = parts q))
      ∧ ∀ p, plan? q = .ok p →
          ∃ filter, Filter.ofParts? (parts q) = .ok filter ∧ p = (gist q).plan filter)
    ∧ (∀ q q' : Query, gist q = gist q' → Alike (plan? q) (plan? q'))
    ∧ ∀ (front : Query) (c : Clause) (between back : Query), (∀ d ∈ between, d.kind ≠ c.kind) →
        Alike (plan? (front ++ c :: (between ++ back))) (plan? (front ++ (between ++ c :: back))) := by
  refine ⟨fun q => ?_, fun q q' => alike_of_gist,
    fun front c between back hother => alike_of_gist (gist_move front back hother)⟩
  have hplanned := planned q
  rw [← isOk_ofParts?_iff]
  generalize plan? q = outcome at hplanned
  cases hplanned with
  | repeated what honce =>
      obtain ⟨why, hwhy⟩ := PlanError.status_repeated what
      simp [honce, hwhy]
  | combined honce halone => simp [honce, halone, PlanError.status]
  | filter honce halone hfilter => simp [honce, halone, hfilter, PlanError.status]
  | @plan filter honce halone hfilter => simp [honce, halone, hfilter]

/-- Modifiers inside an expression, with two hints, where the limit moves to the end; write-time
order with a predicate, alone and behind another write-time order. -/
theorem plans_what_combines_across_kinds :
    let a : Predicate := .isNull "a"
    let b : Predicate := .isNull "b"
    let rest : Query :=
      [.part (.test a), .keyPrefix [1], .part .and, .suggestIndex "i", .part (.test b),
        .deviceId "d", .suggestIndex "j"]
    let p : Plan :=
      { filter := some (.all [.leaf a, .leaf b]), limit := some (10, 0), keyPrefix := some [1],
        index := some "j" }
    let mixed : Query := [.orderByWriteTime true, .part (.test a)]
    (plan? (.limit 10 0 :: rest) = .ok p
      ∧ (∃ filter, Filter.ofParts? (parts (.limit 10 0 :: rest)) = .ok filter
          ∧ p = (gist (.limit 10 0 :: rest)).plan filter)
      ∧ Alike (plan? (.limit 10 0 :: rest)) (plan? (rest ++ [.limit 10 0])))
    ∧ (∃ e what, plan? mixed = .error e ∧ e.status = .notSupported what)
    ∧ ∃ e why, plan? (.orderByWriteTime false :: mixed) = .error e
        ∧ e.status = .invalidArgument why := by
  intro a b rest p mixed
  obtain ⟨hplans, -, hmove⟩ := plans_what_combines
  have hplan : plan? (.limit 10 0 :: rest) = .ok p := rfl
  have hother : ∀ d ∈ rest, d.kind ≠ (Clause.limit 10 0).kind := by decide
  have hmoved := hmove [] (.limit 10 0) rest [] hother
  rw [List.append_nil] at hmoved
  refine ⟨⟨hplan, (hplans _).2.2.2 p hplan, hmoved⟩, (hplans mixed).2.1.mpr ⟨?_, ?_⟩,
    (hplans _).2.2.1.mpr (.inl fun honce => ?_)⟩
  · intro what
    cases what <;> decide
  · exact fun halone => absurd rfl (halone ⟨_, List.mem_cons_self, rfl⟩ (.part (.test a))
      (by simp [mixed])).1
  · exact absurd (honce .writeTime) (by decide)

end PeerStore.Query
