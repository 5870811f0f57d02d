import PeerStore.Query.Evaluate

/-!
# Filter expressions

The parts of a filter are an expression: terms joined by `or`, a term being factors joined by `and`,
and a factor a predicate or an expression in a group. `Expression`, `Term` and `Factor` are the
derivations of this grammar. Parts have at most one derivation (`Expression.eq_of_parts`), the
reader accepts exactly the parts that have one (`readParts_eq_ok_iff`), and the tree that it gives
has the value of the derivation (`Expression.holds_filter`). A tree that is written out with a group
around each nested joint is read back (`ofParts?_render`).
-/

set_option autoImplicit false

namespace PeerStore.Query

/-! ## The grammar -/

mutual

/-- A derivation of an expression: `term (or term)*`. -/
inductive Expression where
  | term (t : Term)
  | or (t : Term) (rest : Expression)

/-- A derivation of a term: `factor (and factor)*`. -/
inductive Term where
  | factor (f : Factor)
  | and (f : Factor) (rest : Term)

/-- A derivation of a factor: `predicate | begin expression end`. -/
inductive Factor where
  | test (p : Predicate)
  | group (e : Expression)

end

mutual

/-- The parts that an expression derives. -/
def Expression.parts : Expression → List FilterPart
  | .term t => t.parts
  | .or t e => t.parts ++ .or :: e.parts

/-- The parts that a term derives. -/
def Term.parts : Term → List FilterPart
  | .factor f => f.parts
  | .and f t => f.parts ++ .and :: t.parts

/-- The parts that a factor derives. -/
def Factor.parts : Factor → List FilterPart
  | .test p => [.test p]
  | .group e => .beginGroup :: (e.parts ++ [.endGroup])

end

mutual

/-- The value of an expression, given which predicates hold. -/
def Expression.value (test : Predicate → Bool) : Expression → Bool
  | .term t => t.value test
  | .or t e => t.value test || e.value test

/-- The value of a term. -/
def Term.value (test : Predicate → Bool) : Term → Bool
  | .factor f => f.value test
  | .and f t => f.value test && t.value test

/-- The value of a factor. -/
def Factor.value (test : Predicate → Bool) : Factor → Bool
  | .test p => test p
  | .group e => e.value test

end

mutual

/-- The filters of the terms of an expression. -/
def Expression.terms : Expression → List Filter
  | .term t => [Filter.joined .all t.factors]
  | .or t e => Filter.joined .all t.factors :: e.terms

/-- The filters of the factors of a term. -/
def Term.factors : Term → List Filter
  | .factor f => [f.filter]
  | .and f t => f.filter :: t.factors

/-- The filter of a factor. -/
def Factor.filter : Factor → Filter
  | .test p => .leaf p
  | .group e => Filter.joined .any e.terms

end

/-- The filter of a term. -/
def Term.filter (t : Term) : Filter := Filter.joined .all t.factors

/-- The filter of an expression. -/
def Expression.filter (e : Expression) : Filter := Filter.joined .any e.terms

/-! ## One derivation at most -/

mutual

/-- Where a factor ends is settled by its parts. -/
theorem Factor.append_inj (f f' : Factor) {rest rest' : List FilterPart}
    (h : f.parts ++ rest = f'.parts ++ rest') : f = f' ∧ rest = rest' := by
  cases f with
  | test p =>
      cases f' with
      | test p' =>
          simp only [Factor.parts, List.cons_append, List.nil_append, List.cons.injEq,
            FilterPart.test.injEq] at h
          exact ⟨congrArg Factor.test h.1, h.2⟩
      | group e' => simp [Factor.parts] at h
  | group e =>
      cases f' with
      | test p' => simp [Factor.parts] at h
      | group e' =>
          simp only [Factor.parts, List.cons_append, List.append_assoc, List.nil_append,
            List.cons.injEq, true_and] at h
          -- the end of the group is no connector, so the expression inside ends there
          obtain ⟨rfl, hrest⟩ := Expression.append_inj e e' (by simp) (by simp) (by simp) (by simp) h
          simp only [List.cons.injEq, true_and] at hrest
          exact ⟨rfl, hrest⟩

/-- Where a term ends is settled by its parts, unless an `and` goes on with it. -/
theorem Term.append_inj (t t' : Term) {rest rest' : List FilterPart}
    (hrest : rest.head? ≠ some .and) (hrest' : rest'.head? ≠ some .and)
    (h : t.parts ++ rest = t'.parts ++ rest') : t = t' ∧ rest = rest' := by
  cases t with
  | factor f =>
      cases t' with
      | factor f' =>
          obtain ⟨rfl, heq⟩ := Factor.append_inj f f' h
          exact ⟨rfl, heq⟩
      | and f' t' =>
          simp only [Term.parts, List.append_assoc, List.cons_append] at h
          obtain ⟨-, heq⟩ := Factor.append_inj f f' h
          exact absurd (by rw [heq]; rfl) hrest
  | and f t =>
      simp only [Term.parts, List.append_assoc, List.cons_append] at h
      cases t' with
      | factor f' =>
          obtain ⟨-, heq⟩ := Factor.append_inj f f' h
          exact absurd (by rw [← heq]; rfl) hrest'
      | and f' t' =>
          simp only [Term.parts, List.append_assoc, List.cons_append] at h
          obtain ⟨rfl, hmore⟩ := Factor.append_inj f f' h
          simp only [List.cons.injEq, true_and] at hmore
          obtain ⟨rfl, heq⟩ := Term.append_inj t t' hrest hrest' hmore
          exact ⟨rfl, heq⟩

/-- Where an expression ends is settled by its parts, unless a connector goes on with it. -/
theorem Expression.append_inj (e e' : Expression) {rest rest' : List FilterPart}
    (hand : rest.head? ≠ some .and) (hor : rest.head? ≠ some .or)
    (hand' : rest'.head? ≠ some .and) (hor' : rest'.head? ≠ some .or)
    (h : e.parts ++ rest = e'.parts ++ rest') : e = e' ∧ rest = rest' := by
  cases e with
  | term t =>
      cases e' with
      | term t' =>
          obtain ⟨rfl, heq⟩ := Term.append_inj t t' hand hand' h
          exact ⟨rfl, heq⟩
      | or t' e' =>
          simp only [Expression.parts, List.append_assoc, List.cons_append] at h
          obtain ⟨-, heq⟩ := Term.append_inj t t' hand (by simp) h
          exact absurd (by rw [heq]; rfl) hor
  | or t e =>
      simp only [Expression.parts, List.append_assoc, List.cons_append] at h
      cases e' with
      | term t' =>
          obtain ⟨-, heq⟩ := Term.append_inj t t' (by simp) hand' h
          exact absurd (by rw [← heq]; rfl) hor'
      | or t' e' =>
          simp only [Expression.parts, List.append_assoc, List.cons_append] at h
          obtain ⟨rfl, hmore⟩ := Term.append_inj t t' (by simp) (by simp) h
          simp only [List.cons.injEq, true_and] at hmore
          obtain ⟨rfl, heq⟩ := Expression.append_inj e e' hand hor hand' hor' hmore
          exact ⟨rfl, heq⟩

end

/-- **The grammar is unambiguous**: no two derivations have the same parts. -/
theorem Expression.eq_of_parts {e e' : Expression} (h : e.parts = e'.parts) : e = e' := by
  have happend : e.parts ++ [] = e'.parts ++ [] := by rw [h]
  exact (Expression.append_inj e e' (by simp) (by simp) (by simp) (by simp) happend).1

namespace Filter

/-! ## Connectors -/

theorem readParts_and (level : Level) (outer : List Level) (rest : List FilterPart) :
    readParts level outer true (.and :: rest) = readParts level outer false rest := by
  cases outer with
  | nil | cons => rfl

theorem readParts_or (level : Level) (outer : List Level) (rest : List FilterPart) :
    readParts level outer true (.or :: rest) = readParts level.nextTerm outer false rest := by
  cases outer with
  | nil | cons => rfl

/-- What a term under way is made into when the next one begins. -/
theorem Level.nextTerm_reverse (terms : List Filter) (t : Term) :
    (⟨terms, t.factors.reverse⟩ : Level).nextTerm = ⟨t.filter :: terms, []⟩ := by
  simp [Level.nextTerm, Level.term, Term.filter]

/-! ## What is derived is accepted -/

/-- The level of an expression that was read in a group with finished terms. -/
def Level.ofExpression (terms : List Filter) : Expression → Level
  | .term t => ⟨terms, t.factors.reverse⟩
  | .or t e => Level.ofExpression (t.filter :: terms) e

theorem Level.close_ofExpression (terms : List Filter) (e : Expression) :
    (Level.ofExpression terms e).close = joined .any (terms.reverse ++ e.terms) := by
  match e with
  | .term t =>
      show joined .any (joined .all t.factors.reverse.reverse :: terms).reverse = _
      rw [List.reverse_reverse, List.reverse_cons, Expression.terms]
  | .or t e =>
      rw [Level.ofExpression, Level.close_ofExpression, List.reverse_cons, List.append_assoc]
      rfl

mutual

/-- A factor is taken into the term under way. -/
theorem readParts_factor (f : Factor) (level : Level) (outer : List Level)
    (rest : List FilterPart) :
    readParts level outer false (f.parts ++ rest)
      = readParts (level.push f.filter) outer true rest := by
  cases f with
  | test p => rfl
  | group e =>
      rw [Factor.parts, List.cons_append, List.append_assoc]
      show readParts {} (level :: outer) false (e.parts ++ .endGroup :: rest) = _
      rw [readParts_expression e [] (level :: outer)]
      show readParts (level.push (Level.ofExpression [] e).close) outer true rest = _
      rw [Level.close_ofExpression]
      rfl

/-- The factors of a term are taken in one after the other. -/
theorem readParts_term (t : Term) (level : Level) (outer : List Level) (rest : List FilterPart) :
    readParts level outer false (t.parts ++ rest)
      = readParts { level with factors := t.factors.reverse ++ level.factors } outer true rest := by
  cases t with
  | factor f => exact readParts_factor f level outer rest
  | and f t =>
      rw [Term.parts, List.append_assoc, List.cons_append, readParts_factor f, readParts_and,
        readParts_term t, Term.factors, List.reverse_cons, List.append_assoc]
      rfl

/-- The terms of an expression are finished one after the other, but for the last. -/
theorem readParts_expression (e : Expression) (terms : List Filter) (outer : List Level)
    (rest : List FilterPart) :
    readParts ⟨terms, []⟩ outer false (e.parts ++ rest)
      = readParts (Level.ofExpression terms e) outer true rest := by
  cases e with
  | term t =>
      rw [Expression.parts, readParts_term t, List.append_nil]
      rfl
  | or t e =>
      rw [Expression.parts, List.append_assoc, List.cons_append, readParts_term t, List.append_nil,
        readParts_or, Level.nextTerm_reverse, readParts_expression e]
      rfl

end

/-! ## What is accepted is derived -/

/-- Whether what is accepted of up to `n` parts, with a factor to come, begins with a factor. -/
def FactorsTo (n : Nat) : Prop :=
  ∀ (level : Level) (outer : List Level) (ps : List FilterPart) (g : Filter), ps.length ≤ n →
    readParts level outer false ps = .ok g →
    ∃ (f : Factor) (rest : List FilterPart), ps = f.parts ++ rest
      ∧ readParts (level.push f.filter) outer true rest = .ok g

theorem Factor.parts_length_pos (f : Factor) : 0 < f.parts.length := by
  cases f with
  | test p => simp [Factor.parts]
  | group e => simp [Factor.parts]

/-- If factors can be told, so can the longest term in front. -/
theorem FactorsTo.exists_term {n : Nat} (h : FactorsTo n) (level : Level) (outer : List Level)
    {ps : List FilterPart} {g : Filter} (hn : ps.length ≤ n)
    (hok : readParts level outer false ps = .ok g) :
    ∃ (t : Term) (rest : List FilterPart), ps = t.parts ++ rest ∧ rest.head? ≠ some .and
      ∧ readParts { level with factors := t.factors.reverse ++ level.factors } outer true rest
        = .ok g := by
  induction hlength : ps.length using Nat.strongRecOn generalizing level ps with
  | ind k ih =>
      obtain ⟨f, rest, rfl, hrest⟩ := h level outer ps g hn hok
      have hpos := Factor.parts_length_pos f
      rw [List.length_append] at hn hlength
      by_cases hand : rest.head? = some .and
      · -- the term goes on behind the connector
        obtain ⟨more, rfl⟩ : ∃ more, rest = .and :: more := by
          cases rest with
          | nil => simp at hand
          | cons p more => exact ⟨more, by simpa using hand⟩
        rw [readParts_and] at hrest
        rw [List.length_cons] at hn hlength
        obtain ⟨t, rest, rfl, hhead, hread⟩ :=
          ih more.length (by omega) (level.push f.filter) (by omega) hrest rfl
        refine ⟨.and f t, rest, ?_, hhead, ?_⟩
        · rw [Term.parts, List.append_assoc, List.cons_append]
        · rw [Term.factors, List.reverse_cons, List.append_assoc]
          exact hread
      · exact ⟨.factor f, rest, rfl, hand, hrest⟩

/-- If factors can be told, so can the longest expression in front. -/
theorem FactorsTo.exists_expression {n : Nat} (h : FactorsTo n) (terms : List Filter)
    (outer : List Level) {ps : List FilterPart} {g : Filter} (hn : ps.length ≤ n)
    (hok : readParts ⟨terms, []⟩ outer false ps = .ok g) :
    ∃ (e : Expression) (rest : List FilterPart), ps = e.parts ++ rest ∧ rest.head? ≠ some .and
      ∧ rest.head? ≠ some .or ∧ readParts (Level.ofExpression terms e) outer true rest = .ok g := by
  induction hlength : ps.length using Nat.strongRecOn generalizing terms ps with
  | ind k ih =>
      obtain ⟨t, rest, rfl, hand, hrest⟩ := h.exists_term ⟨terms, []⟩ outer hn hok
      rw [List.append_nil] at hrest
      rw [List.length_append] at hn hlength
      by_cases hor : rest.head? = some .or
      · -- the expression goes on behind the connector
        obtain ⟨more, rfl⟩ : ∃ more, rest = .or :: more := by
          cases rest with
          | nil => simp at hor
          | cons p more => exact ⟨more, by simpa using hor⟩
        rw [readParts_or, Level.nextTerm_reverse] at hrest
        rw [List.length_cons] at hn hlength
        obtain ⟨e, rest, rfl, hand', hor', hread⟩ :=
          ih more.length (by omega) (t.filter :: terms) (by omega) hrest rfl
        refine ⟨.or t e, rest, ?_, hand', hor', hread⟩
        rw [Expression.parts, List.append_assoc, List.cons_append]
      · exact ⟨.term t, rest, rfl, hand, hor, hrest⟩

/-- Behind an expression in a group nothing is accepted but the end of the group. -/
theorem exists_endGroup {level up : Level} {outer : List Level} {rest : List FilterPart}
    {g : Filter} (hand : rest.head? ≠ some .and) (hor : rest.head? ≠ some .or)
    (hok : readParts level (up :: outer) true rest = .ok g) :
    ∃ more, rest = .endGroup :: more
      ∧ readParts (up.push level.close) outer true more = .ok g := by
  cases rest with
  | nil => simp [readParts] at hok
  | cons p more =>
      cases p with
      | endGroup => exact ⟨more, rfl, hok⟩
      | and => simp at hand
      | or => simp at hor
      | test | beginGroup => simp [readParts] at hok

/-- Behind an expression in no group nothing is accepted. -/
theorem eq_nil_of_readParts {level : Level} {rest : List FilterPart} {g : Filter}
    (hand : rest.head? ≠ some .and) (hor : rest.head? ≠ some .or)
    (hok : readParts level [] true rest = .ok g) : rest = [] ∧ level.close = g := by
  cases rest with
  | nil => exact ⟨rfl, Except.ok.inj hok⟩
  | cons p more =>
      cases p with
      | and => simp at hand
      | or => simp at hor
      | test | beginGroup | endGroup => simp [readParts] at hok

/-- Whatever is accepted with a factor to come begins with a factor. The induction is on the number
of parts: what stands in a group is shorter than the group. -/
theorem factorsTo (n : Nat) : FactorsTo n := by
  induction n with
  | zero =>
      intro level outer ps g hn hok
      rw [List.eq_nil_of_length_eq_zero (Nat.le_zero.mp hn)] at hok
      simp [readParts] at hok
  | succ n ih =>
      intro level outer ps g hn hok
      cases ps with
      | nil => simp [readParts] at hok
      | cons p ps =>
          rw [List.length_cons] at hn
          cases p with
          | test p => exact ⟨.test p, ps, rfl, hok⟩
          | beginGroup =>
              have hinside : readParts {} (level :: outer) false ps = .ok g := hok
              obtain ⟨e, rest, rfl, hand, hor, hread⟩ :=
                ih.exists_expression [] (level :: outer) (by omega) hinside
              obtain ⟨more, rfl, hmore⟩ := exists_endGroup hand hor hread
              refine ⟨.group e, more, ?_, ?_⟩
              · rw [Factor.parts, List.cons_append, List.append_assoc]
                rfl
              · rw [Level.close_ofExpression] at hmore
                exact hmore
          | and | or | endGroup => simp [readParts] at hok

/-- **The reader accepts exactly the parts that have a derivation**, and gives its filter. -/
theorem readParts_eq_ok_iff {ps : List FilterPart} {g : Filter} :
    readParts {} [] false ps = .ok g ↔ ∃ e : Expression, e.parts = ps ∧ e.filter = g := by
  constructor
  · intro hok
    obtain ⟨e, rest, rfl, hand, hor, hread⟩ :=
      (factorsTo ps.length).exists_expression [] [] (Nat.le_refl _) hok
    obtain ⟨rfl, hclose⟩ := eq_nil_of_readParts hand hor hread
    rw [Level.close_ofExpression] at hclose
    exact ⟨e, (List.append_nil _).symm, hclose⟩
  · rintro ⟨e, rfl, rfl⟩
    have hread := readParts_expression e [] [] []
    rw [List.append_nil] at hread
    refine hread.trans ?_
    show Except.ok (Level.ofExpression [] e).close = _
    rw [Level.close_ofExpression]
    rfl

/-! ## The value of what is read -/

theorem holds_joined_all (test : Predicate → Bool) (fs : List Filter) :
    (joined .all fs).holds test = holdAll test fs := by
  match fs with
  | [] => rfl
  | [f] => simp [joined, holdAll]
  | _ :: _ :: _ => rfl

theorem holds_joined_any (test : Predicate → Bool) (fs : List Filter) :
    (joined .any fs).holds test = holdsAny test fs := by
  match fs with
  | [] => rfl
  | [f] => simp [joined, holdsAny]
  | _ :: _ :: _ => rfl

end Filter

mutual

theorem Expression.holdsAny_terms (test : Predicate → Bool) (e : Expression) :
    Filter.holdsAny test e.terms = e.value test := by
  cases e with
  | term t =>
      rw [Expression.terms, Filter.holdsAny, Filter.holdsAny, Filter.holds_joined_all,
        Term.holdAll_factors test t, Bool.or_false, Expression.value]
  | or t e =>
      rw [Expression.terms, Filter.holdsAny, Filter.holds_joined_all, Term.holdAll_factors test t,
        Expression.holdsAny_terms test e, Expression.value]

theorem Term.holdAll_factors (test : Predicate → Bool) (t : Term) :
    Filter.holdAll test t.factors = t.value test := by
  cases t with
  | factor f =>
      rw [Term.factors, Filter.holdAll, Filter.holdAll, Factor.holds_filter test f, Bool.and_true,
        Term.value]
  | and f t =>
      rw [Term.factors, Filter.holdAll, Factor.holds_filter test f, Term.holdAll_factors test t,
        Term.value]

theorem Factor.holds_filter (test : Predicate → Bool) (f : Factor) :
    f.filter.holds test = f.value test := by
  cases f with
  | test p => rfl
  | group e =>
      rw [Factor.filter, Filter.holds_joined_any, Expression.holdsAny_terms test e, Factor.value]

end

/-- **The filter of an expression has its value.** -/
theorem Expression.holds_filter (test : Predicate → Bool) (e : Expression) :
    e.filter.holds test = e.value test := by
  rw [Expression.filter, Filter.holds_joined_any, Expression.holdsAny_terms]

/-! ## Leaves -/

/-- The predicate that a part is. -/
def FilterPart.predicate? : FilterPart → Option Predicate
  | test p => some p
  | _ => none

mutual

/-- The predicates of a filter, in their order. -/
def Filter.leaves : Filter → List Predicate
  | .leaf p => [p]
  | .all fs => Filter.leavesOf fs
  | .any fs => Filter.leavesOf fs

/-- The predicates of filters, one filter after the other. -/
def Filter.leavesOf : List Filter → List Predicate
  | [] => []
  | f :: fs => f.leaves ++ Filter.leavesOf fs

end

theorem Filter.leaves_joined_all (fs : List Filter) : (joined .all fs).leaves = leavesOf fs := by
  match fs with
  | [] => rfl
  | [f] => simp [joined, leavesOf]
  | _ :: _ :: _ => rfl

theorem Filter.leaves_joined_any (fs : List Filter) : (joined .any fs).leaves = leavesOf fs := by
  match fs with
  | [] => rfl
  | [f] => simp [joined, leavesOf]
  | _ :: _ :: _ => rfl

mutual

theorem Expression.leavesOf_terms (e : Expression) :
    Filter.leavesOf e.terms = e.parts.filterMap FilterPart.predicate? := by
  cases e with
  | term t =>
      rw [Expression.terms, Filter.leavesOf, Filter.leavesOf, Filter.leaves_joined_all,
        Term.leavesOf_factors t, List.append_nil, Expression.parts]
  | or t e =>
      rw [Expression.terms, Filter.leavesOf, Filter.leaves_joined_all, Term.leavesOf_factors t,
        Expression.leavesOf_terms e, Expression.parts, List.filterMap_append]
      rfl

theorem Term.leavesOf_factors (t : Term) :
    Filter.leavesOf t.factors = t.parts.filterMap FilterPart.predicate? := by
  cases t with
  | factor f =>
      rw [Term.factors, Filter.leavesOf, Filter.leavesOf, Factor.leaves_filter f, List.append_nil,
        Term.parts]
  | and f t =>
      rw [Term.factors, Filter.leavesOf, Factor.leaves_filter f, Term.leavesOf_factors t,
        Term.parts, List.filterMap_append]
      rfl

theorem Factor.leaves_filter (f : Factor) :
    f.filter.leaves = f.parts.filterMap FilterPart.predicate? := by
  cases f with
  | test p => rfl
  | group e =>
      have hmarks : (e.parts ++ [FilterPart.endGroup]).filterMap FilterPart.predicate?
          = e.parts.filterMap FilterPart.predicate? := by
        rw [List.filterMap_append]
        exact List.append_nil _
      rw [Factor.filter, Filter.leaves_joined_any, Expression.leavesOf_terms e]
      exact hmarks.symm

end

/-- The leaves of the filter of an expression are its predicates. -/
theorem Expression.leaves_filter (e : Expression) :
    e.filter.leaves = e.parts.filterMap FilterPart.predicate? := by
  rw [Expression.filter, Filter.leaves_joined_any, Expression.leavesOf_terms]

/-! ## Trees written out -/

namespace Filter

/-- A tree whose joints all have two children at least. -/
inductive Branching : Filter → Prop where
  | leaf (p : Predicate) : Branching (.leaf p)
  | all {fs : List Filter} : 2 ≤ fs.length → (∀ f ∈ fs, Branching f) → Branching (.all fs)
  | any {fs : List Filter} : 2 ≤ fs.length → (∀ f ∈ fs, Branching f) → Branching (.any fs)

/-- The parts of a filter that stands inside a joint: a joint is put in a group. -/
def grouped (f : Filter) (ps : List FilterPart) : List FilterPart :=
  match f with
  | .leaf _ => ps
  | .all _ | .any _ => .beginGroup :: (ps ++ [.endGroup])

mutual

/-- Writes a tree out, with a group around each joint inside another. -/
def render : Filter → List FilterPart
  | .leaf p => [.test p]
  | .all fs => renderJoined .and fs
  | .any fs => renderJoined .or fs

/-- Writes the children of a joint out, with its connector between them. -/
def renderJoined (connector : FilterPart) : List Filter → List FilterPart
  | [] => []
  | [f] => f.grouped f.render
  | f :: fs => f.grouped f.render ++ connector :: renderJoined connector fs

end

theorem joined_of_two_le {fs : List Filter} (h : 2 ≤ fs.length) (join : List Filter → Filter) :
    joined join fs = join fs := by
  match fs with
  | [] | [_] => simp at h
  | _ :: _ :: _ => rfl

theorem renderJoined_cons {fs : List Filter} (h : fs ≠ []) (connector : FilterPart) (f : Filter) :
    renderJoined connector (f :: fs)
      = f.grouped f.render ++ connector :: renderJoined connector fs := by
  cases fs with
  | nil => exact absurd rfl h
  | cons g gs => rfl

/-- Whether a filter inside a joint is written as a factor derives it. -/
def IsFactor (f : Filter) : Prop := ∃ x : Factor, x.parts = f.grouped f.render ∧ x.filter = f

/-- Filters that are written as factors are written together as a term. -/
theorem exists_term {fs : List Filter} (hne : fs ≠ []) (h : ∀ f ∈ fs, f.IsFactor) :
    ∃ t : Term, t.parts = renderJoined .and fs ∧ t.factors = fs := by
  induction fs with
  | nil => exact absurd rfl hne
  | cons f fs ih =>
      obtain ⟨x, hparts, hfilter⟩ := h f List.mem_cons_self
      by_cases hlast : fs = []
      · subst hlast
        refine ⟨.factor x, ?_, ?_⟩
        · rw [Term.parts, hparts, renderJoined]
        · rw [Term.factors, hfilter]
      · obtain ⟨t, htparts, hfactors⟩ := ih hlast fun g hg => h g (List.mem_cons_of_mem f hg)
        refine ⟨.and x t, ?_, ?_⟩
        · rw [Term.parts, hparts, htparts, renderJoined_cons hlast]
        · rw [Term.factors, hfilter, hfactors]

/-- Filters that are written as factors are written together as an expression of such terms. -/
theorem exists_expression {fs : List Filter} (hne : fs ≠ []) (h : ∀ f ∈ fs, f.IsFactor) :
    ∃ e : Expression, e.parts = renderJoined .or fs ∧ e.terms = fs := by
  induction fs with
  | nil => exact absurd rfl hne
  | cons f fs ih =>
      obtain ⟨x, hparts, hfilter⟩ := h f List.mem_cons_self
      have hterm : joined .all (Term.factor x).factors = f := by
        rw [Term.factors, hfilter]
        rfl
      by_cases hlast : fs = []
      · subst hlast
        refine ⟨.term (.factor x), ?_, ?_⟩
        · rw [Expression.parts, Term.parts, hparts, renderJoined]
        · rw [Expression.terms, hterm]
      · obtain ⟨e, heparts, hterms⟩ := ih hlast fun g hg => h g (List.mem_cons_of_mem f hg)
        refine ⟨.or (.factor x) e, ?_, ?_⟩
        · rw [Expression.parts, Term.parts, hparts, heparts, renderJoined_cons hlast]
        · rw [Expression.terms, hterm, hterms]

/-- A tree is written as an expression derives it, and inside a joint as a factor does. -/
theorem Branching.exists_expression {f : Filter} (h : f.Branching) :
    (∃ e : Expression, e.parts = f.render ∧ e.filter = f) ∧ f.IsFactor := by
  induction h with
  | leaf p => exact ⟨⟨.term (.factor (.test p)), rfl, rfl⟩, .test p, rfl, rfl⟩
  | @all fs htwo _ ih =>
      have hne : fs ≠ [] := by
        rintro rfl
        simp at htwo
      obtain ⟨t, hparts, hfactors⟩ := exists_term hne fun f hf => (ih f hf).2
      have hfilter : (Expression.term t).filter = .all fs := by
        show joined .all t.factors = _
        rw [hfactors, joined_of_two_le htwo]
      refine ⟨⟨.term t, ?_, hfilter⟩, .group (.term t), ?_, hfilter⟩
      · rw [Expression.parts, hparts, render]
      · rw [Factor.parts, Expression.parts, hparts, grouped, render]
  | @any fs htwo _ ih =>
      have hne : fs ≠ [] := by
        rintro rfl
        simp at htwo
      obtain ⟨e, hparts, hterms⟩ := Filter.exists_expression hne fun f hf => (ih f hf).2
      have hfilter : e.filter = .any fs := by
        rw [Expression.filter, hterms, joined_of_two_le htwo]
      refine ⟨⟨e, ?_, hfilter⟩, .group e, ?_, hfilter⟩
      · rw [hparts, render]
      · rw [Factor.parts, hparts, grouped, render]

/-! ## All parts -/

theorem ofParts?_eq_ok_none_iff {ps : List FilterPart} : ofParts? ps = .ok none ↔ ps = [] := by
  cases ps with
  | nil => simp [ofParts?]
  | cons p ps =>
      show (readParts {} [] false (p :: ps)).map some = _ ↔ _
      cases readParts {} [] false (p :: ps) with
      | ok | error => simp [Except.map]

theorem ofParts?_eq_ok_some_iff {ps : List FilterPart} {f : Filter} :
    ofParts? ps = .ok (some f) ↔ ∃ e : Expression, e.parts = ps ∧ e.filter = f := by
  rw [← readParts_eq_ok_iff]
  cases ps with
  | nil => simp [ofParts?, readParts]
  | cons p ps =>
      show (readParts {} [] false (p :: ps)).map some = _ ↔ _
      cases readParts {} [] false (p :: ps) with
      | ok | error => simp [Except.map]

/-- **Parts are read as their grammar says.** The reader accepts no parts at all and the parts that
an expression derives, and refuses everything else as an invalid argument. An expression is the only
one that derives its parts, the leaves of the tree that is read are the predicates in their order,
and whichever predicates hold, the tree has the value of the expression. Conversely a tree that is
written out with a group around each joint inside another is read back as it was. -/
theorem reads_exactly_expressions :
    (∀ ps : List FilterPart,
      ((ofParts? ps).isOk = true ↔ ps = [] ∨ ∃ e : Expression, e.parts = ps)
      ∧ (∀ err, ofParts? ps = .error err →
          (PlanError.filter err).status = .invalidArgument err.message)
      ∧ (ofParts? ps = .ok none ↔ ps = [])
      ∧ ∀ f, ofParts? ps = .ok (some f) →
          f.leaves = ps.filterMap FilterPart.predicate?
          ∧ ∃ e : Expression, (∀ e' : Expression, e'.parts = ps ↔ e' = e)
            ∧ ∀ test, f.holds test = e.value test)
    ∧ ∀ f : Filter, f.Branching → ofParts? f.render = .ok (some f) := by
  refine ⟨fun ps => ⟨?_, fun err _ => rfl, ofParts?_eq_ok_none_iff, ?_⟩, ?_⟩
  · cases hread : ofParts? ps with
    | error err =>
        -- a derivation, or none to be made, would have been accepted
        have hnone : ps ≠ [] := by
          rintro rfl
          cases hread
        have hsome : ¬∃ e : Expression, e.parts = ps := by
          rintro ⟨e, he⟩
          rw [ofParts?_eq_ok_some_iff.mpr ⟨e, he, rfl⟩] at hread
          cases hread
        simp [Except.isOk, Except.toBool, hnone, hsome]
    | ok f? =>
        have haccepted : ps = [] ∨ ∃ e : Expression, e.parts = ps := by
          cases f? with
          | none => exact .inl (ofParts?_eq_ok_none_iff.mp hread)
          | some f =>
              obtain ⟨e, he, -⟩ := ofParts?_eq_ok_some_iff.mp hread
              exact .inr ⟨e, he⟩
        exact ⟨fun _ => haccepted, fun _ => rfl⟩
  · intro f hread
    obtain ⟨e, rfl, rfl⟩ := ofParts?_eq_ok_some_iff.mp hread
    refine ⟨e.leaves_filter, e, fun e' => ?_, fun test => e.holds_filter test⟩
    exact ⟨Expression.eq_of_parts, congrArg Expression.parts⟩
  · intro f hf
    obtain ⟨⟨e, hparts, hfilter⟩, -⟩ := hf.exists_expression
    exact ofParts?_eq_ok_some_iff.mpr ⟨e, hparts, hfilter⟩

/-- A group with an `or` in front of an `and`: the group comes first, and the tree written out again
gives the same parts. -/
theorem reads_exactly_expressions_of_group :
    let a : Predicate := .isNull "a"
    let b : Predicate := .isNull "b"
    let c : Predicate := .isNull "c"
    let ps : List FilterPart := [.beginGroup, .test a, .or, .test b, .endGroup, .and, .test c]
    let f : Filter := .all [.any [.leaf a, .leaf b], .leaf c]
    ofParts? ps = .ok (some f) ∧ f.leaves = [a, b, c]
      ∧ (∃ e : Expression, (∀ e' : Expression, e'.parts = ps ↔ e' = e)
          ∧ ∀ test, f.holds test = e.value test)
      ∧ f.render = ps ∧ ofParts? f.render = .ok (some f)
      ∧ (ofParts? [.test a, .endGroup]).isOk = false := by
  intro a b c ps f
  have hread : ofParts? ps = .ok (some f) := rfl
  have hinner : (Filter.any [.leaf a, .leaf b]).Branching := by
    refine .any (by decide) fun g hg => ?_
    simp only [List.mem_cons, List.not_mem_nil, or_false] at hg
    rcases hg with rfl | rfl <;> exact .leaf _
  have hbranching : f.Branching := by
    refine .all (by decide) fun g hg => ?_
    simp only [List.mem_cons, List.not_mem_nil, or_false] at hg
    rcases hg with rfl | rfl
    · exact hinner
    · exact .leaf _
  obtain ⟨hparts, hrender⟩ := reads_exactly_expressions
  obtain ⟨-, -, -, hf⟩ := hparts ps
  exact ⟨hread, (hf f hread).1, (hf f hread).2, rfl, hrender f hbranching, rfl⟩

end Filter

end PeerStore.Query
