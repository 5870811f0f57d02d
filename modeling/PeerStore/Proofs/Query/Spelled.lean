import Mathlib.Data.List.Forall2
import PeerStore.Proofs.Query.Evaluate
import PeerStore.Proofs.Query.Expression

/-!
# Lists of literals written out

`oneOf` and `noneOf` compare a field with a list of literals. The group of single comparisons that
says the same (`spelled`) may take their place at any nesting position: the reader refuses the parts
for the same reason as before, or gives a tree of the same value
(`SameReading`). **`lists_spelled_out`** carries this over to plans and their results, and says how
a test and its opposite share the records out.
-/

set_option autoImplicit false

namespace PeerStore.Query

/-- The group of comparisons of a field with each of some literals. -/
def spelled (op : CompareOp) (connector : FilterPart) (field : String) (values : List Literal) :
    List FilterPart :=
  .beginGroup ::
    ((values.map fun v => .test (.compare op field v)).intersperse connector ++ [.endGroup])

theorem passes_equal (actual : Json) (v : Literal) : passes .equal actual v = equals actual v := by
  unfold passes equals
  cases orderOf? actual v with
  | none => rfl
  | some o => rfl

namespace Filter

/-! ## Readings of the same value -/

section

variable {test : Predicate → Bool}

theorem holdAll_eq_all (fs : List Filter) : holdAll test fs = (fs.map (holds test)).all id := by
  induction fs with
  | nil => rfl
  | cons f fs ih => rw [holdAll, ih, List.map_cons, List.all_cons, id]

theorem holdsAny_eq_any (fs : List Filter) : holdsAny test fs = (fs.map (holds test)).any id := by
  induction fs with
  | nil => rfl
  | cons f fs ih => rw [holdsAny, ih, List.map_cons, List.any_cons, id]

variable (test) in
/-- Whether what was read of two groups has the same values. -/
structure SameValues (l l' : Level) : Prop where
  terms : l.terms.map (holds test) = l'.terms.map (holds test)
  factors : l.factors.map (holds test) = l'.factors.map (holds test)

namespace SameValues

variable {l l' : Level}

theorem refl (l : Level) : SameValues test l l := ⟨rfl, rfl⟩

theorem push (h : SameValues test l l') {f f' : Filter} (hf : f.holds test = f'.holds test) :
    SameValues test (l.push f) (l'.push f') where
  terms := h.terms
  factors := by rw [Level.push, Level.push, List.map_cons, List.map_cons, hf, h.factors]

theorem holds_term (h : SameValues test l l') : l.term.holds test = l'.term.holds test := by
  have hterm (l : Level) : l.term.holds test = (l.factors.map (holds test)).reverse.all id := by
    rw [Level.term, holds_joined_all, holdAll_eq_all, List.map_reverse]
  calc l.term.holds test
      = (l.factors.map (holds test)).reverse.all id := hterm l
    _ = (l'.factors.map (holds test)).reverse.all id := by rw [h.factors]
    _ = l'.term.holds test := (hterm l').symm

theorem nextTerm (h : SameValues test l l') : SameValues test l.nextTerm l'.nextTerm where
  terms := by
    rw [Level.nextTerm, Level.nextTerm, List.map_cons, List.map_cons, h.holds_term, h.terms]
  factors := rfl

theorem holds_close (h : SameValues test l l') : l.close.holds test = l'.close.holds test := by
  -- the term under way ends with the group
  have hclose (l : Level) :
      l.close.holds test = (l.nextTerm.terms.map (holds test)).reverse.any id := by
    rw [Level.close, holds_joined_any, holdsAny_eq_any, List.map_reverse]
    rfl
  calc l.close.holds test
      = (l.nextTerm.terms.map (holds test)).reverse.any id := hclose l
    _ = (l'.nextTerm.terms.map (holds test)).reverse.any id := by rw [h.nextTerm.terms]
    _ = l'.close.holds test := (hclose l').symm

end SameValues

variable (test) in
/-- Whether two lists of parts are read alike behind whatever has the same values: both are refused
for one reason, or they make filters of one value. -/
def SameReading (ps ps' : List FilterPart) : Prop :=
  ∀ ⦃level level' : Level⦄ ⦃outer outer' : List Level⦄, SameValues test level level' →
    List.Forall₂ (SameValues test) outer outer' → ∀ complete,
    (readParts level outer complete ps).map (holds test)
      = (readParts level' outer' complete ps').map (holds test)

namespace SameReading

variable {ps ps' : List FilterPart}

theorem nil : SameReading test [] [] := by
  intro level level' outer outer' hlevel houter complete
  cases complete with
  | false => rfl
  | true =>
      cases houter with
      | nil => exact congrArg Except.ok hlevel.holds_close
      | cons => rfl

/-- One part more is taken in on both sides. -/
theorem cons (h : SameReading test ps ps') (part : FilterPart) :
    SameReading test (part :: ps) (part :: ps') := by
  intro level level' outer outer' hlevel houter complete
  cases complete with
  | false =>
      cases part with
      | test p => exact h (hlevel.push rfl) houter true
      | beginGroup => exact h (.refl {}) (.cons hlevel houter) false
      | and | or | endGroup => rfl
  | true =>
      cases part with
      | and =>
          rw [readParts_and, readParts_and]
          exact h hlevel houter false
      | or =>
          rw [readParts_or, readParts_or]
          exact h hlevel.nextTerm houter false
      | endGroup =>
          cases houter with
          | nil => rfl
          | cons hup houter => exact h (hup.push hlevel.holds_close) houter true
      | test | beginGroup => cases houter <;> rfl

theorem append_left (h : SameReading test ps ps') (front : List FilterPart) :
    SameReading test (front ++ ps) (front ++ ps') := by
  induction front with
  | nil => exact h
  | cons part front ih => exact ih.cons part

theorem refl (ps : List FilterPart) : SameReading test ps ps := by
  have hnil : SameReading test [] [] := .nil
  have happend := hnil.append_left ps
  rwa [List.append_nil] at happend

/-- A group may stand for a test of the same value. -/
theorem group {p : Predicate} {e : Expression} (hvalue : test p = e.value test)
    (back : List FilterPart) :
    SameReading test (.test p :: back) ((Factor.group e).parts ++ back) := by
  intro level level' outer outer' hlevel houter complete
  cases complete with
  | false =>
      have hholds : (Filter.leaf p).holds test = (Factor.group e).filter.holds test := by
        rw [Factor.holds_filter, Factor.value, ← hvalue, holds]
      rw [readParts_factor (.group e)]
      exact SameReading.refl back (hlevel.push hholds) houter true
  | true =>
      -- neither a test nor a group can follow a factor
      cases houter <;> rfl

/-- Parts that are read alike are refused for one reason, or make filters of one value. -/
theorem ofParts? (h : SameReading test ps ps') (hps : ps ≠ []) (hps' : ps' ≠ []) :
    (ofParts? ps).map (Option.map (holds test)) = (ofParts? ps').map (Option.map (holds test)) := by
  have hread {ps : List FilterPart} (hne : ps ≠ []) :
      (Filter.ofParts? ps).map (Option.map (holds test))
        = ((readParts {} [] false ps).map (holds test)).map some := by
    cases ps with
    | nil => exact absurd rfl hne
    | cons part ps =>
        show ((readParts {} [] false (part :: ps)).map some).map _ = _
        cases readParts {} [] false (part :: ps) with
        | error e => rfl
        | ok f => rfl
  rw [hread hps, hread hps', h (.refl {}) .nil false]

end SameReading

end

/-! ## The groups -/

theorem renderJoined_leaves (connector : FilterPart) (tests : List Predicate) :
    renderJoined connector (tests.map leaf) = (tests.map .test).intersperse connector := by
  match tests with
  | [] | [_] => rfl
  | p :: p' :: tests =>
      have ih := renderJoined_leaves connector (p' :: tests)
      rw [List.map_cons, renderJoined_cons (by simp), ih]
      rfl

theorem isFactor_of_mem_leaves {tests : List Predicate} {f : Filter} (h : f ∈ tests.map leaf) :
    f.IsFactor := by
  obtain ⟨p, -, rfl⟩ := List.mem_map.mp h
  exact ⟨.test p, rfl, rfl⟩

theorem holds_leaves (test : Predicate → Bool) (tests : List Predicate) :
    (tests.map leaf).map (holds test) = tests.map test := by
  rw [List.map_map]
  rfl

variable {vs : List Literal} (hvs : vs ≠ []) (field : String)
include hvs

/-- Equality with one of some literals, as a group. -/
theorem exists_group_oneOf : ∃ e : Expression,
    (Factor.group e).parts = spelled .equal .or field vs ∧
      ∀ doc, (Predicate.oneOf field vs).holds doc = e.value (Predicate.holds doc) := by
  have hne : (vs.map (Predicate.compare .equal field)).map leaf ≠ [] := by simpa using hvs
  obtain ⟨e, hparts, hterms⟩ := exists_expression hne fun f => isFactor_of_mem_leaves
  refine ⟨e, ?_, fun doc => ?_⟩
  · rw [Factor.parts, hparts, renderJoined_leaves, List.map_map]
    rfl
  · have hany : (Predicate.oneOf field vs).holds doc
        = vs.any fun v => (Predicate.compare .equal field v).holds doc := by
      simp only [Predicate.holds, passes_equal]
      cases present? doc field with
      | none => simp
      | some a => rfl
    calc (Predicate.oneOf field vs).holds doc
        = vs.any fun v => (Predicate.compare .equal field v).holds doc := hany
      _ = holdsAny (Predicate.holds doc) e.terms := by
          rw [hterms, holdsAny_eq_any, holds_leaves, List.map_map, List.any_map]
          rfl
      _ = e.value (Predicate.holds doc) := e.holdsAny_terms _

/-- Difference from each of some literals, as a group. -/
theorem exists_group_noneOf : ∃ e : Expression,
    (Factor.group e).parts = spelled .notEqual .and field vs ∧
      ∀ doc, (Predicate.noneOf field vs).holds doc = e.value (Predicate.holds doc) := by
  have hne : (vs.map (Predicate.compare .notEqual field)).map leaf ≠ [] := by simpa using hvs
  obtain ⟨t, hparts, hfactors⟩ := exists_term hne fun f => isFactor_of_mem_leaves
  refine ⟨.term t, ?_, fun doc => ?_⟩
  · rw [Factor.parts, Expression.parts, hparts, renderJoined_leaves, List.map_map]
    rfl
  · have hall : (Predicate.noneOf field vs).holds doc
        = vs.all fun v => (Predicate.compare .notEqual field v).holds doc := by
      simp only [Predicate.holds, passes]
      cases present? doc field with
      | none =>
          -- a field that is not there fails each comparison, and there is one
          simpa using List.exists_mem_of_ne_nil vs hvs
      | some a => exact List.not_any_eq_all_not
    calc (Predicate.noneOf field vs).holds doc
        = vs.all fun v => (Predicate.compare .notEqual field v).holds doc := hall
      _ = holdAll (Predicate.holds doc) t.factors := by
          rw [hfactors, holdAll_eq_all, holds_leaves, List.map_map, List.all_map]
          rfl
      _ = (Expression.term t).value (Predicate.holds doc) := t.holdAll_factors _

end Filter

/-! ## Plans -/

/-- Whether two queries come to plans with the same results, or fail for one reason. -/
inductive SameResults : Except PlanError Plan → Except PlanError Plan → Prop where
  | plan {p p' : Plan} : (∀ records, p.evaluate records = p'.evaluate records) →
      SameResults (.ok p) (.ok p')
  | failure (e : PlanError) : SameResults (.error e) (.error e)

/-- Filter parts leave the rest of a plan alone. -/
theorem Plan.addAll_parts (p : Plan) (front back : Query) (ps : List FilterPart) :
    p.addAll (front ++ (ps.map .part ++ back)) = p.addAll (front ++ back) := by
  induction front generalizing p with
  | nil =>
      induction ps with
      | nil => rfl
      | cons part ps ih => exact ih
  | cons c front ih =>
      simp only [List.cons_append, addAll]
      cases p.add c with
      | error e => rfl
      | ok p => exact ih p

/-- Plans that differ in their filters only, of one value, have the same results. -/
theorem Plan.evaluate_congr (p : Plan) {filter filter' : Option Filter}
    (h : ∀ doc, filter.map (Filter.holds (Predicate.holds doc))
      = filter'.map (Filter.holds (Predicate.holds doc))) (records : List Record) :
    { p with filter }.evaluate records = { p with filter := filter' }.evaluate records := by
  have haccepts : { p with filter }.accepts = { p with filter := filter' }.accepts := by
    funext r
    have hr := h r.value.document?
    cases filter with
    | none =>
        cases filter' with
        | none => rfl
        | some f' => cases hr
    | some f =>
        cases filter' with
        | none => cases hr
        | some f' => exact congrArg (p.selects r.key && ·) (Option.some.inj hr)
  show p.page (p.sort (records.filter _)) = p.page (p.sort (records.filter _))
  rw [haccepts]

section

variable (front back : Query) {ps ps' : List FilterPart}

theorem parts_between (ps : List FilterPart) :
    parts (front ++ (ps.map .part ++ back)) = parts front ++ (ps ++ parts back) := by
  have hps : (ps.map Clause.part).filterMap Clause.part? = ps := by
    rw [List.filterMap_map]
    exact List.filterMap_some
  rw [parts, List.filterMap_append, List.filterMap_append, hps]
  rfl

theorem orderings_between (ps : List FilterPart) :
    orderings (front ++ (ps.map .part ++ back)) = orderings front ++ orderings back := by
  have hps : (ps.map Clause.part).filterMap Clause.ordering? = [] := by
    rw [List.filterMap_map]
    exact List.filterMap_none ps
  rw [orderings, List.filterMap_append, List.filterMap_append, hps]
  rfl

/-- **Parts that are read alike may take each other's place in a query.** -/
theorem sameResults_of_sameReading (hps : ps ≠ []) (hps' : ps' ≠ [])
    (h : ∀ doc rest, Filter.SameReading (Predicate.holds doc) (ps ++ rest) (ps' ++ rest)) :
    SameResults (plan? (front ++ (ps.map .part ++ back)))
      (plan? (front ++ (ps'.map .part ++ back))) := by
  have hne {ps : List FilterPart} (hps : ps ≠ []) : parts front ++ (ps ++ parts back) ≠ [] := by
    simp [hps]
  have hisEmpty {ps : List FilterPart} (hps : ps ≠ []) :
      (parts front ++ (ps ++ parts back)).isEmpty = false :=
    List.isEmpty_eq_false_iff.mpr (hne hps)
  have hread doc := ((h doc (parts back)).append_left (parts front)).ofParts? (hne hps) (hne hps')
  simp only [plan?, parts_between, orderings_between, Plan.addAll_parts, hisEmpty hps,
    hisEmpty hps']
  cases Plan.addAll {} (front ++ back) with
  | error e => exact .failure e
  | ok p =>
      dsimp only
      split
      · exact .failure .writeTimeCombined
      · -- the readings are compared for each document, the reason of a failure is the same for all
        generalize Filter.ofParts? (parts front ++ (ps ++ parts back)) = read at hread
        generalize Filter.ofParts? (parts front ++ (ps' ++ parts back)) = read' at hread
        cases read with
        | error e =>
            cases read' with
            | error e' =>
                obtain rfl := Except.error.inj (hread none)
                exact .failure (.filter e)
            | ok filter' => cases hread none
        | ok filter =>
            cases read' with
            | error e' => cases hread none
            | ok filter' =>
                exact .plan (Plan.evaluate_congr { p with orderBy := _ } fun doc =>
                  Except.ok.inj (hread doc))

end

/-! ## Opposites -/

/-- The tests of a field that are the negatives of others. -/
inductive Opposite (field : String) : Predicate → Predicate → Prop where
  | compare (v : Literal) : Opposite field (.compare .equal field v) (.compare .notEqual field v)
  | list (vs : List Literal) : Opposite field (.oneOf field vs) (.noneOf field vs)
  | pattern (pattern : String) : Opposite field (.like field pattern) (.notLike field pattern)

/-- Whether a test selects a record. -/
def Predicate.selects (p : Predicate) (r : Record) : Bool := p.holds r.value.document?

namespace Opposite

variable {field : String} {pos neg : Predicate}

/-- What passes a test has its field, and the negative takes the rest of what has it. -/
theorem holds_iff (h : Opposite field pos neg) (doc : Option Json) :
    (pos.holds doc = true → (Predicate.isNull field).holds doc = false)
      ∧ neg.holds doc = (!(Predicate.isNull field).holds doc && !pos.holds doc) := by
  cases h with
  | compare | list | pattern =>
      simp only [Predicate.holds, passes_equal]
      cases present? doc field with
      | none => exact ⟨nofun, rfl⟩
      | some a => exact ⟨fun _ => rfl, rfl⟩

/-- Of a null check, a test and its negative exactly one selects a record. -/
theorem countP_selects (h : Opposite field pos neg) (r : Record) :
    [.isNull field, pos, neg].countP (fun p => p.selects r) = 1 := by
  obtain ⟨hpos, hneg⟩ := h.holds_iff r.value.document?
  simp only [List.countP_cons, List.countP_nil, Predicate.selects, hneg]
  cases hp : pos.holds r.value.document? with
  | true =>
      rw [hpos hp]
      rfl
  | false => cases (Predicate.isNull field).holds r.value.document? <;> rfl

end Opposite

/-- The plan of a query of one test. -/
theorem plan?_test (p : Predicate) :
    plan? [.part (.test p)] = .ok { filter := some (.leaf p) } := rfl

theorem evaluate_test (p : Predicate) (records : List Record) :
    Plan.evaluate { filter := some (.leaf p) } records = records.filter p.selects := by
  show records.filter _ = _
  refine List.filter_congr fun r _ => ?_
  show (true && true && p.holds r.value.document?) = p.selects r
  rw [Predicate.selects, Bool.true_and, Bool.true_and]

/-- **A list of literals may be written out.** Let a query have a `oneOf` or a `noneOf` with some
literals at any position, in groups or behind modifiers. With the group of single comparisons in its
place, the query fails for the same reason as before, or it has a plan that gives the same results
in the same order, whatever the records. A test alone selects by what its field has, and of a null
check, a test of the field and its negative exactly one selects a record: negatives do not select
records that have no such field. -/
theorem lists_spelled_out :
    (∀ (front back : Query) (field : String) (vs : List Literal), vs ≠ [] →
      SameResults (plan? (front ++ .part (.test (.oneOf field vs)) :: back))
          (plan? (front ++ ((spelled .equal .or field vs).map .part ++ back)))
        ∧ SameResults (plan? (front ++ .part (.test (.noneOf field vs)) :: back))
            (plan? (front ++ ((spelled .notEqual .and field vs).map .part ++ back))))
    ∧ (∀ p : Predicate, ∃ plan, plan? [.part (.test p)] = .ok plan
        ∧ ∀ records, plan.evaluate records = records.filter p.selects)
    ∧ ∀ (field : String) (pos neg : Predicate), Opposite field pos neg →
        ∀ r : Record, [.isNull field, pos, neg].countP (fun p => p.selects r) = 1 := by
  refine ⟨fun front back field vs hvs => ?_, fun p => ⟨_, plan?_test p, evaluate_test p⟩,
    fun field pos neg hopposite => hopposite.countP_selects⟩
  have hreplace {p : Predicate} {ps : List FilterPart}
      (hgroup : ∃ e : Expression, (Factor.group e).parts = ps ∧
        ∀ doc, p.holds doc = e.value (Predicate.holds doc)) :
      SameResults (plan? (front ++ .part (.test p) :: back))
        (plan? (front ++ (ps.map .part ++ back))) := by
    obtain ⟨e, rfl, hvalue⟩ := hgroup
    have hone : [FilterPart.test p] ≠ [] := List.cons_ne_nil _ _
    have hparts : (Factor.group e).parts ≠ [] := by simp [Factor.parts]
    exact sameResults_of_sameReading front back hone hparts fun doc rest =>
      .group (hvalue doc) rest
  exact ⟨hreplace (Filter.exists_group_oneOf hvs field),
    hreplace (Filter.exists_group_noneOf hvs field)⟩

set_option maxRecDepth 20000 in
/-- A list in a group behind a limit, a negative list where no test can stand, and a pattern that
takes a record only if the field is there. -/
theorem lists_spelled_out_of_mixedRecords :
    let vs : List Literal := [.str "x", .bool true]
    let front : Query := [.part (.test (.isNull "b")), .part .and, .limit 2 0, .part .beginGroup]
    let back : Query := [.part .or, .part (.test (.isNull "c")), .part .endGroup]
    let isB : Clause := .part (.test (.isNull "b"))
    vs ≠ []
      ∧ (∃ p, plan? (front ++ ((spelled .equal .or "a" vs).map .part ++ back)) = .ok p
          ∧ (p.evaluate mixedRecords).map (·.key) = [[1], [2]])
      ∧ plan? ([isB] ++ ((spelled .notEqual .and "a" vs).map .part ++ []))
          = .error (.filter .notJoined)
      ∧ ∀ r : Record, [Predicate.isNull "a", .like "a" "x", .notLike "a" "x"].countP
          (fun p => p.selects r) = 1 := by
  intro vs front back isB
  have hvs : vs ≠ [] := List.cons_ne_nil _ _
  obtain ⟨hlists, -, hopposite⟩ := lists_spelled_out
  have hplan : plan? (front ++ .part (.test (.oneOf "a" vs)) :: back) = .ok
      { limit := some (2, 0)
        filter := some (.all
          [.leaf (.isNull "b"), .any [.leaf (.oneOf "a" vs), .leaf (.isNull "c")]]) } := rfl
  have herror : plan? ([isB] ++ .part (.test (.noneOf "a" vs)) :: [])
      = .error (.filter .notJoined) := rfl
  have hsame := (hlists front back "a" vs hvs).1
  have hsame' := (hlists [isB] [] "a" vs hvs).2
  rw [hplan] at hsame
  rw [herror] at hsame'
  refine ⟨hvs, ?_, ?_, hopposite _ _ _ (.pattern "x")⟩
  · generalize plan? (front ++ ((spelled .equal .or "a" vs).map .part ++ back)) = outcome at hsame
    cases hsame with
    | plan heval =>
        refine ⟨_, rfl, ?_⟩
        rw [← heval]
        cbv
  · generalize plan? ([isB] ++ ((spelled .notEqual .and "a" vs).map .part ++ [])) = outcome
      at hsame'
    cases hsame' with
    | failure => rfl

end PeerStore.Query
