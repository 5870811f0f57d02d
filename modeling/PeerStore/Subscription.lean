import PeerStore.Record
import PeerStore.Status

/-!
# Subscriptions

Observers subscribe to changes made on this device, to changes received from others, or to
both. The registry keeps the observers of a store in the order of their registration, each once
and with a scope that is never empty, and at most a fixed number of them.
-/

set_option autoImplicit false

namespace PeerStore

/-- A non-empty set of origins. -/
inductive Scope where
  | here
  | remote
  | all
  deriving DecidableEq, Repr

namespace Scope

/-- The scope as a bit set. -/
def bits : Scope → Nat
  | here => 1
  | remote => 2
  | all => 3

/-- Whether the scope includes an origin. -/
def includes : Scope → Origin → Bool
  | all, _ => true
  | here, .here => true
  | remote, .remote _ => true
  | _, _ => false

/-- Both scopes together. -/
def union : Scope → Scope → Scope
  | here, here => here
  | remote, remote => remote
  | _, _ => all

/-- What the first scope has and the second has not, if there is anything. -/
def minus? : Scope → Scope → Option Scope
  | _, all => none
  | here, here => none
  | remote, remote => none
  | here, remote => some here
  | remote, here => some remote
  | all, here => some remote
  | all, remote => some here

/-- Whether two scopes have nothing in common. -/
def disjoint : Scope → Scope → Bool
  | here, remote => true
  | remote, here => true
  | _, _ => false

end Scope

/-- An observer with its scope. -/
structure Subscription where
  observer : String
  scope : Scope
  deriving DecidableEq, Repr

/-- The observers of a store. -/
structure Registry where
  max : Nat
  subscriptions : List Subscription := []
  deriving DecidableEq, Repr

namespace Registry

/-- The scope of an observer. -/
def scope? (r : Registry) (observer : String) : Option Scope :=
  (r.subscriptions.find? (·.observer == observer)).map (·.scope)

/-- Gives an observer that is registered another scope. -/
def setScope (r : Registry) (observer : String) (scope : Scope) : Registry :=
  { r with
    subscriptions := r.subscriptions.map fun s =>
      if s.observer == observer then { s with scope } else s }

/-- Adds to the scope of an observer what it lacks. -/
def subscribe (r : Registry) (observer : String) (scope : Scope) : Except Status Registry :=
  match r.scope? observer with
  | some held =>
      if (scope.minus? held).isNone then .error .alreadySubscribed
      else .ok (r.setScope observer (held.union scope))
  | none =>
      if r.max ≤ r.subscriptions.length then .error (.tooManyObservers r.max)
      else .ok { r with subscriptions := r.subscriptions ++ [⟨observer, scope⟩] }

/-- Takes a scope from an observer, and forgets the observer if it has nothing left. -/
def unsubscribe (r : Registry) (observer : String) (scope : Scope) : Except Status Registry :=
  match r.scope? observer with
  | none => .error .notSubscribed
  | some held =>
      if held.disjoint scope then .error .notSubscribed
      else
        match held.minus? scope with
        | some left => .ok (r.setScope observer left)
        | none =>
            .ok { r with subscriptions := r.subscriptions.filter (·.observer != observer) }

/-- The observers whose scope includes an origin, in the order of their registration. -/
def targets (r : Registry) (origin : Origin) : List String :=
  (r.subscriptions.filter (·.scope.includes origin)).map (·.observer)

/-- The number of observers. -/
def size (r : Registry) : Nat := r.subscriptions.length

/-- Forgets all observers. -/
def clear (r : Registry) : Registry := { r with subscriptions := [] }

end Registry

end PeerStore
