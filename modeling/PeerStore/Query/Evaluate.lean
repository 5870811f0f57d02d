import PeerStore.Query.Document
import PeerStore.Query.Pattern
import PeerStore.Query.Plan

/-!
# Evaluating plans

`Plan.evaluate` selects, orders and pages records. Key selection and the filter come first,
then the order (by write time, by fields, or as given), then the page.
-/

set_option autoImplicit false

namespace PeerStore.Query

/-! ## Predicates -/

/-- The order of a value and a literal; values of another type have none. -/
def orderOf? (actual : Json) : Literal → Option Ordering
  | .str s => actual.str?.map fun a => compare a s
  | .bool b => actual.bool?.map fun a => compare a b
  | v => actual.num?.bind fun a => v.double?.bind fun b => a.compare? b

/-- Whether an order satisfies a comparison. -/
def CompareOp.accepts : CompareOp → Ordering → Bool
  | equal, o => o == .eq
  | notEqual, o => o != .eq
  | greater, o => o == .gt
  | less, o => o == .lt
  | greaterOrEqual, o => o != .lt
  | lessOrEqual, o => o != .gt

/-- Whether a value equals a literal. -/
def equals (actual : Json) (v : Literal) : Bool := orderOf? actual v == some .eq

/-- Whether a value passes a comparison. A value of another type differs from the literal and
passes nothing else. -/
def passes (op : CompareOp) (actual : Json) (v : Literal) : Bool :=
  match op with
  | .notEqual => !equals actual v
  | op =>
      match orderOf? actual v with
      | some o => op.accepts o
      | none => false

/-- Whether a string value matches a pattern. -/
def matchesPattern (actual : Json) (pattern : String) : Bool :=
  match actual.str? with
  | some s => like s pattern
  | none => false

/-- Whether a document passes a test. Only `isNull` accepts a field that is missing or null. -/
def Predicate.holds (doc : Option Json) : Predicate → Bool
  | compare op field v => (present? doc field).any fun a => passes op a v
  | oneOf field vs => (present? doc field).any fun a => vs.any (equals a)
  | noneOf field vs => (present? doc field).any fun a => !vs.any (equals a)
  | like field pattern => (present? doc field).any fun a => matchesPattern a pattern
  | notLike field pattern => (present? doc field).any fun a => !matchesPattern a pattern
  | isNull field => (present? doc field).isNone
  | isNotNull field => (present? doc field).isSome

mutual

/-- Whether a filter holds, given which predicates do. -/
def Filter.holds (test : Predicate → Bool) : Filter → Bool
  | .leaf p => test p
  | .all fs => Filter.holdAll test fs
  | .any fs => Filter.holdsAny test fs

/-- Whether all filters of a list hold. -/
def Filter.holdAll (test : Predicate → Bool) : List Filter → Bool
  | [] => true
  | f :: fs => f.holds test && Filter.holdAll test fs

/-- Whether some filter of a list holds. -/
def Filter.holdsAny (test : Predicate → Bool) : List Filter → Bool
  | [] => false
  | f :: fs => f.holds test || Filter.holdsAny test fs

end

/-! ## Order -/

/-- Where the kinds of values come in a field order: missing and null first, then booleans,
numbers, strings, and containers. -/
def rank : Option Json → Nat
  | none | some .null => 0
  | some (.bool _) => 1
  | some (.num _) => 2
  | some (.str _) => 3
  | some (.arr _) | some (.obj _) => 4

/-- The order of two field values. Containers are all alike. -/
def compareValues : Option Json → Option Json → Ordering
  | some (.bool a), some (.bool b) => compare a b
  | some (.num a), some (.num b) => (a.compare? b).getD .eq
  | some (.str a), some (.str b) => compare a b
  | a, b => compare (rank a) (rank b)

/-- The order of two documents by fields, the first that tells them apart deciding. -/
def compareBy : List (String × Bool) → Option Json → Option Json → Ordering
  | [], _, _ => .eq
  | (field, ascending) :: fields, a, b =>
      let o := compareValues (lookup? a field) (lookup? b field)
      match if ascending then o else o.swap with
      | .eq => compareBy fields a b
      | o => o

/-- Orders records by fields; records that agree on all of them stay as they were. -/
def sortByFields (fields : List (String × Bool)) (records : List Record) : List Record :=
  ((records.map fun r => (r.value.document?, r)).mergeSort fun a b =>
    compareBy fields a.1 b.1 != .gt).map (·.2)

/-- Whether one record comes no later than another in write-time order. Records written at the
same time are in ascending key order in either direction. -/
def writtenNoLater (ascending : Bool) (a b : Record) : Bool :=
  if a.time = b.time then !Blob.before b.key a.key
  else if ascending then decide (a.time < b.time) else decide (b.time < a.time)

/-- Orders records as a plan asks. -/
def Plan.sort (p : Plan) (records : List Record) : List Record :=
  match p.writeTime with
  | some ascending => records.mergeSort (writtenNoLater ascending)
  | none => if p.orderBy.isEmpty then records else sortByFields p.orderBy records

/-! ## Results -/

/-- Whether a record is selected by key and passes the filter. -/
def Plan.accepts (p : Plan) (r : Record) : Bool :=
  p.selects r.key &&
    match p.filter with
    | some f => f.holds (Predicate.holds r.value.document?)
    | none => true

/-- The page of a list of results. -/
def Plan.page (p : Plan) (records : List Record) : List Record :=
  match p.limit with
  | some (number, offset) => (records.drop offset).take number
  | none => records

/-- The records that a plan asks for. -/
def Plan.evaluate (p : Plan) (records : List Record) : List Record :=
  p.page (p.sort (records.filter p.accepts))

end PeerStore.Query
