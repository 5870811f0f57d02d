import PeerStore.Proofs.Query.Expression

/-!
# The reader of filters as a recursive descent

The grammar of filter parts can be read with one function for each of its rules: `expr` for terms
joined by `or`, `term` for factors joined by `and`, `factor` for a predicate or a group. Each takes
the parts from the front and leaves the rest, fewer parts than it was given. `Filter.readParts` does
the same in one pass. What is a call of `expr` within `factor` there is a level on the stack here,
so the two go on alike behind a factor (`readParts_eq_factor`), a term (`readParts_eq_term`) and an
expression (`readParts_eq_expr`), and they give the same filters and the same errors
(**`ofParts?_eq_parse`**).
-/

set_option autoImplicit false

namespace PeerStore.Query.Filter

namespace Descent

/-! ## The descent -/

/-- A filter with the parts that are left, which are fewer than `n`; or why there is none. -/
abbrev Read (n : Nat) : Type :=
  Except FilterError (Filter × { rest : List FilterPart // rest.length < n })

mutual

/-- Reads terms joined by `or`. -/
def expr (ps : List FilterPart) : Read ps.length :=
  match term ps with
  | .error e => .error e
  | .ok (f, ⟨rest, h⟩) => moreTerms [f] rest h
termination_by (ps.length, 2)

/-- Reads the terms that go on an expression. -/
def moreTerms {n : Nat} (done : List Filter) (ps : List FilterPart) (h : ps.length < n) : Read n :=
  match ps, h with
  | .or :: ps, h =>
      match term ps with
      | .error e => .error e
      | .ok (f, ⟨rest, hrest⟩) =>
          moreTerms (done ++ [f]) rest (Nat.lt_trans hrest (Nat.lt_of_succ_lt h))
  | ps, h => .ok (joined .any done, ⟨ps, h⟩)
termination_by (ps.length, 0)

/-- Reads factors joined by `and`. -/
def term (ps : List FilterPart) : Read ps.length :=
  match factor ps with
  | .error e => .error e
  | .ok (f, ⟨rest, h⟩) => moreFactors [f] rest h
termination_by (ps.length, 1)

/-- Reads the factors that go on a term. -/
def moreFactors {n : Nat} (done : List Filter) (ps : List FilterPart) (h : ps.length < n) :
    Read n :=
  match ps, h with
  | .and :: ps, h =>
      match factor ps with
      | .error e => .error e
      | .ok (f, ⟨rest, hrest⟩) =>
          moreFactors (done ++ [f]) rest (Nat.lt_trans hrest (Nat.lt_of_succ_lt h))
  | ps, h => .ok (joined .all done, ⟨ps, h⟩)
termination_by (ps.length, 0)

/-- Reads a predicate or a group. -/
def factor (ps : List FilterPart) : Read ps.length :=
  match ps with
  | .beginGroup :: ps =>
      match expr ps with
      | .error e => .error e
      | .ok (f, ⟨.endGroup :: rest, h⟩) =>
          .ok (f, ⟨rest, Nat.lt_succ_of_lt (Nat.lt_of_succ_lt h)⟩)
      | .ok _ => .error .unbalancedBegin
  | .test p :: ps => .ok (.leaf p, ⟨ps, Nat.lt_succ_self _⟩)
  | _ :: _ => .error .expectedPredicate
  | [] => .error .endsWithConnector
termination_by (ps.length, 0)

end

/-- The filter of a list of parts, read from the first to the last. -/
def parse : List FilterPart → Except FilterError (Option Filter)
  | [] => .ok none
  | ps =>
      match expr ps with
      | .error e => .error e
      | .ok (f, ⟨[], _⟩) => .ok (some f)
      | .ok (_, ⟨.endGroup :: _, _⟩) => .error .unbalancedEnd
      | .ok _ => .error .notJoined

/-- Goes on with what was read. -/
def Read.andThen {n : Nat} (r : Read n)
    (next : Filter → List FilterPart → Except FilterError Filter) : Except FilterError Filter :=
  match r with
  | .error e => .error e
  | .ok (f, rest) => next f rest

end Descent

open Descent

/-! ## Behind a term and behind an expression -/

/-- How reading goes on behind an expression: a group ends, or all has been read. -/
def afterExpr (f : Filter) : (outer : List Level) → List FilterPart → Except FilterError Filter
  | [], [] => .ok f
  | [], .endGroup :: _ => .error .unbalancedEnd
  | [], _ => .error .notJoined
  | up :: outer, .endGroup :: ps => readParts (up.push f) outer true ps
  | _ :: _, _ => .error .unbalancedBegin

/-- How reading goes on behind a term: with another one, or behind the expression. No term ends
before `and`, so what is said of that does not matter. -/
def afterTerm (terms : List Filter) (outer : List Level) (f : Filter) :
    List FilterPart → Except FilterError Filter
  | .or :: ps => readParts ⟨f :: terms, []⟩ outer false ps
  | ps => afterExpr (joined .any (f :: terms).reverse) outer ps

/-- Where a term does not go on, only the filter that it makes counts. -/
theorem readParts_eq_afterTerm {ps : List FilterPart} (h : ps.head? ≠ some .and)
    (level : Level) (outer : List Level) :
    readParts level outer true ps = afterTerm level.terms outer level.term ps := by
  cases ps with
  | nil =>
      cases outer with
      | nil | cons => rfl
  | cons p ps =>
      cases p with
      | and => exact absurd rfl h
      | or => exact readParts_or level outer ps
      | test | beginGroup | endGroup =>
          cases outer with
          | nil | cons => rfl

/-! ## The descent and the single pass -/

-- The theorems follow the calls of the descent: on fewer parts, or on the same parts by a rule that
-- stands lower in the grammar.
mutual

theorem readParts_eq_factor (ps : List FilterPart) (level : Level) (outer : List Level) :
    readParts level outer false ps
      = (factor ps).andThen fun f rest => readParts (level.push f) outer true rest := by
  rw [factor.eq_def]
  match ps with
  | [] => rfl
  | .test p :: ps => rfl
  | .and :: ps | .or :: ps | .endGroup :: ps => rfl
  | .beginGroup :: ps =>
      show readParts {} (level :: outer) false ps = _
      rw [readParts_eq_expr ps (level :: outer)]
      dsimp only
      cases expr ps with
      | error e => rfl
      | ok r =>
          obtain ⟨f, rest, h⟩ := r
          match rest with
          | .endGroup :: rest => rfl
          | [] | .test p :: rest | .beginGroup :: rest | .and :: rest | .or :: rest => rfl
termination_by (ps.length, 0)

theorem readParts_eq_moreFactors {n : Nat} (ps : List FilterPart) (h : ps.length < n)
    (terms factors : List Filter) (outer : List Level) :
    readParts ⟨terms, factors⟩ outer true ps
      = (moreFactors factors.reverse ps h).andThen (afterTerm terms outer) := by
  match ps, h with
  | .and :: ps, h =>
      rw [readParts_and, readParts_eq_factor ps, moreFactors]
      cases factor ps with
      | error e => rfl
      | ok r =>
          obtain ⟨f, rest, hrest⟩ := r
          dsimp only
          rw [← List.reverse_cons]
          exact readParts_eq_moreFactors rest _ terms (f :: factors) outer
  | [], h | .or :: ps, h | .test p :: ps, h | .beginGroup :: ps, h | .endGroup :: ps, h =>
      rw [readParts_eq_afterTerm (by simp), moreFactors.eq_def]
      rfl
termination_by (ps.length, 0)

theorem readParts_eq_term (ps : List FilterPart) (terms : List Filter) (outer : List Level) :
    readParts ⟨terms, []⟩ outer false ps = (term ps).andThen (afterTerm terms outer) := by
  rw [readParts_eq_factor ps, term]
  cases factor ps with
  | error e => rfl
  | ok r =>
      obtain ⟨f, rest, h⟩ := r
      exact readParts_eq_moreFactors rest h terms [f] outer
termination_by (ps.length, 1)

theorem afterTerm_eq_moreTerms {n : Nat} (ps : List FilterPart) (h : ps.length < n)
    (terms : List Filter) (f : Filter) (outer : List Level) :
    afterTerm terms outer f ps
      = (moreTerms (f :: terms).reverse ps h).andThen fun g rest => afterExpr g outer rest := by
  match ps, h with
  | .or :: ps, h =>
      rw [afterTerm, readParts_eq_term ps, moreTerms]
      cases term ps with
      | error e => rfl
      | ok r =>
          obtain ⟨g, rest, hrest⟩ := r
          dsimp only
          rw [← List.reverse_cons]
          exact afterTerm_eq_moreTerms rest _ (f :: terms) g outer
  | [], h | .and :: ps, h | .test p :: ps, h | .beginGroup :: ps, h | .endGroup :: ps, h =>
      rw [moreTerms.eq_def]
      rfl
termination_by (ps.length, 0)

theorem readParts_eq_expr (ps : List FilterPart) (outer : List Level) :
    readParts {} outer false ps
      = (expr ps).andThen fun f rest => afterExpr f outer rest := by
  rw [readParts_eq_term ps, expr]
  cases term ps with
  | error e => rfl
  | ok r =>
      obtain ⟨f, rest, h⟩ := r
      exact afterTerm_eq_moreTerms rest h [] f outer
termination_by (ps.length, 2)

end

/-- **The reader gives what the recursive descent gives**: the same filter, or the same error. -/
theorem ofParts?_eq_parse (ps : List FilterPart) : ofParts? ps = parse ps := by
  cases ps with
  | nil => rfl
  | cons p ps =>
      show (readParts {} [] false (p :: ps)).map some = _
      rw [readParts_eq_expr, parse]
      · cases expr (p :: ps) with
        | error e => rfl
        | ok r =>
            obtain ⟨f, rest, h⟩ := r
            match rest with
            | [] | .endGroup :: rest => rfl
            | .test q :: rest | .beginGroup :: rest | .and :: rest | .or :: rest => rfl
      · exact List.cons_ne_nil p ps

end PeerStore.Query.Filter
