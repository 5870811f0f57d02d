/-!
# Failures of store operations

`Status` is the failure of every store operation, with its wording (`message`) and its stable
number (`code`). Success is the other side of `Except Status`.
-/

set_option autoImplicit false

namespace PeerStore

/-- Why a store operation failed. -/
inductive Status where
  /-- A persistence or transport failure. -/
  | backend (reason : String)
  /-- A malformed key, value, query or option. -/
  | invalidArgument (reason : String)
  /-- The store does not exist and may not be created. -/
  | storeNotFound (id : String)
  /-- The store has been closed, or the manager has not opened it. -/
  | storeNotOpen (id : String)
  /-- The observer has the whole scope already. -/
  | alreadySubscribed
  /-- The observer has no part of the scope. -/
  | notSubscribed
  /-- One more observer would exceed the maximum. -/
  | tooManyObservers (max : Nat)
  /-- The store has no such key. -/
  | keyNotFound
  /-- The result set has been closed. -/
  | alreadyClosed
  /-- A reserved feature, or clauses that do not combine. -/
  | notSupported (what : String)
  /-- A sync deadline passed before the device reported. -/
  | timedOut
  deriving DecidableEq, Repr, Inhabited

namespace Status

/-- The number that stands for the kind of failure; it never changes. -/
def code : Status → Nat
  | backend _ => 1
  | invalidArgument _ => 2
  | storeNotFound _ => 3
  | storeNotOpen _ => 4
  | alreadySubscribed => 5
  | notSubscribed => 6
  | tooManyObservers _ => 7
  | keyNotFound => 8
  | alreadyClosed => 9
  | notSupported _ => 10
  | timedOut => 11

/-- The wording shown to callers. -/
def message : Status → String
  | backend reason => "Backend error: " ++ reason
  | invalidArgument reason => "Invalid argument: " ++ reason
  | storeNotFound id => "Store not found: " ++ id
  | storeNotOpen id => "Store not open: " ++ id
  | alreadySubscribed => "Observer already subscribed"
  | notSubscribed => "Observer not subscribed"
  | tooManyObservers max => "Subscription limit reached: maximum " ++ toString max ++ " observers"
  | keyNotFound => "Key not found"
  | alreadyClosed => "Result set already closed"
  | notSupported what => "Not supported: " ++ what
  | timedOut => "Operation timed out"

/-- Whether the caller passed something malformed. -/
def isInvalidArgument : Status → Bool
  | invalidArgument _ => true
  | _ => false

end Status

end PeerStore
