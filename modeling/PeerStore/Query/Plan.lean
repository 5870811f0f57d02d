import PeerStore.Query.Filter

/-!
# Plans

`Query.plan?` checks how the clauses of a query combine and sorts them by what they do: the
filter, the order, the page, and the selection by key.
-/

set_option autoImplicit false

namespace PeerStore.Query

/-- A modifier that may be given once. -/
inductive Single where
  | writeTime
  | limit
  | keyPrefix
  | inKeys
  deriving DecidableEq, Repr

/-- Why clauses make no plan. -/
inductive PlanError where
  | repeated (what : Single)
  | writeTimeCombined
  | filter (e : FilterError)
  deriving DecidableEq, Repr

namespace PlanError

/-- The failure that a bad combination amounts to. -/
def status : PlanError → Status
  | repeated .writeTime => .invalidArgument "write-time ordering given more than once"
  | repeated .limit => .invalidArgument "limit given more than once"
  | repeated .keyPrefix => .invalidArgument "key prefix given more than once"
  | repeated .inKeys => .invalidArgument "key list given more than once"
  | writeTimeCombined =>
      .notSupported "write-time ordering only combines with key selection and limit"
  | filter e => .invalidArgument e.message

end PlanError

/-- What a query asks for. -/
structure Plan where
  /-- The tree of predicates; without one every document passes. -/
  filter : Option Filter := none
  /-- Fields to order by, each ascending or not, the most significant first. -/
  orderBy : List (String × Bool) := []
  /-- Order by write time, ascending or not. -/
  writeTime : Option Bool := none
  /-- How many results to keep, and how many to skip before. -/
  limit : Option (Nat × Nat) := none
  keyPrefix : Option Blob := none
  inKeys : Option (KeySet Blob) := none
  /-- A hint that changes no result. -/
  index : Option String := none

/-- Whether a stored key is selected. -/
def Plan.selects (p : Plan) (key : Blob) : Bool :=
  (match p.keyPrefix with
    | some pfx => key.startsWith pfx
    | none => true) &&
  match p.inKeys with
  | some keys => keys.contains key
  | none => true

/-- Takes one clause into a plan, except for filter parts and fields to order by. -/
def Plan.add (p : Plan) : Clause → Except PlanError Plan
  | .part _ => .ok p
  | .orderBy _ _ => .ok p
  | .orderByWriteTime ascending =>
      if p.writeTime.isSome then .error (.repeated .writeTime)
      else .ok { p with writeTime := some ascending }
  | .limit number offset =>
      if p.limit.isSome then .error (.repeated .limit)
      else .ok { p with limit := some (number, offset) }
  | .keyPrefix pfx =>
      if p.keyPrefix.isSome then .error (.repeated .keyPrefix)
      else .ok { p with keyPrefix := some pfx }
  | .inKeys keys =>
      if p.inKeys.isSome then .error (.repeated .inKeys)
      else .ok { p with inKeys := some keys }
  | .deviceId _ => .ok p
  | .suggestIndex index => .ok { p with index := some index }

/-- Takes clauses into a plan, in order. -/
def Plan.addAll : Plan → List Clause → Except PlanError Plan
  | p, [] => .ok p
  | p, c :: cs =>
      match p.add c with
      | .ok p => p.addAll cs
      | .error e => .error e

/-- The filter part of a clause, if it is one. -/
def Clause.part? : Clause → Option FilterPart
  | .part p => some p
  | _ => none

/-- The filter parts of a query. -/
def parts (q : Query) : List FilterPart := q.filterMap Clause.part?

/-- The field that a clause orders by, if it does. -/
def Clause.ordering? : Clause → Option (String × Bool)
  | .orderBy field ascending => some (field, ascending)
  | _ => none

/-- The fields that a query orders by. -/
def orderings (q : Query) : List (String × Bool) := q.filterMap Clause.ordering?

/-- The plan of a query. Write-time order combines with selection by key and paging only. -/
def plan? (q : Query) : Except PlanError Plan :=
  match Plan.addAll {} q with
  | .error e => .error e
  | .ok p =>
      if p.writeTime.isSome && (!(parts q).isEmpty || !(orderings q).isEmpty || p.index.isSome) then
        .error .writeTimeCombined
      else
        match Filter.ofParts? (parts q) with
        | .error e => .error (.filter e)
        | .ok filter => .ok { p with filter, orderBy := orderings q }

end PeerStore.Query
