import PeerStore.Query.Clause
import PeerStore.Status

/-!
# Filters

The filter parts of a query are an expression in which `and` binds tighter than `or` and groups
come first. `Filter.ofParts?` reads them, in one pass with a stack of open groups, into a tree
of predicates. A recursive descent along the grammar gives the same (`Filter.ofParts?_eq_parse`).
-/

set_option autoImplicit false

namespace PeerStore.Query

/-- A tree of predicates. -/
inductive Filter where
  | leaf (p : Predicate)
  /-- Every part has to hold. -/
  | all (parts : List Filter)
  /-- One part has to hold. -/
  | any (parts : List Filter)
  deriving Repr

/-- Why filter parts make no expression. -/
inductive FilterError where
  | unbalancedEnd
  | unbalancedBegin
  | notJoined
  | expectedPredicate
  | endsWithConnector
  deriving DecidableEq, Repr

namespace FilterError

/-- The wording shown to callers. -/
def message : FilterError → String
  | unbalancedEnd => "unbalanced end group"
  | unbalancedBegin => "unbalanced begin group"
  | notJoined => "predicates must be joined by and/or"
  | expectedPredicate => "expected a predicate"
  | endsWithConnector => "query ends with a connector"

end FilterError

namespace Filter

/-- Joins filters; a single one needs no joint. -/
def joined (join : List Filter → Filter) : List Filter → Filter
  | [f] => f
  | fs => join fs

/-- A group that is being read: the finished terms, and the factors of the term under way, both
in reverse order. -/
structure Level where
  terms : List Filter := []
  factors : List Filter := []

namespace Level

/-- Takes in a factor. -/
def push (l : Level) (f : Filter) : Level := { l with factors := f :: l.factors }

/-- The term under way. -/
def term (l : Level) : Filter := joined .all l.factors.reverse

/-- Ends the term under way and begins another. -/
def nextTerm (l : Level) : Level := { terms := l.term :: l.terms }

/-- The filter of the whole group. -/
def close (l : Level) : Filter := joined .any (l.term :: l.terms).reverse

end Level

/-- Reads the rest of an expression. `level` is the innermost open group and `outer` are those
around it; `complete` says whether the last part was the end of a factor. -/
def readParts : (level : Level) → (outer : List Level) → (complete : Bool) → List FilterPart →
    Except FilterError Filter
  | _, _, false, [] => .error .endsWithConnector
  | level, [], true, [] => .ok level.close
  | _, _ :: _, true, [] => .error .unbalancedBegin
  | level, outer, false, .test p :: ps => readParts (level.push (.leaf p)) outer true ps
  | level, outer, false, .beginGroup :: ps => readParts {} (level :: outer) false ps
  | _, _, false, _ :: _ => .error .expectedPredicate
  | level, outer, true, .and :: ps => readParts level outer false ps
  | level, outer, true, .or :: ps => readParts level.nextTerm outer false ps
  | level, up :: outer, true, .endGroup :: ps => readParts (up.push level.close) outer true ps
  | _, [], true, .endGroup :: _ => .error .unbalancedEnd
  | _, [], true, _ :: _ => .error .notJoined
  | _, _ :: _, true, _ :: _ => .error .unbalancedBegin

/-- The filter of a list of parts; no parts make no filter. -/
def ofParts? : List FilterPart → Except FilterError (Option Filter)
  | [] => .ok none
  | ps => (readParts {} [] false ps).map some

end Filter

end PeerStore.Query
