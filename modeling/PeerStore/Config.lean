import PeerStore.Limits

/-!
# Configuration of a manager

`Config` holds the settings that a manager applies to all its stores.
-/

set_option autoImplicit false

namespace PeerStore

/-- Settings of a manager. -/
structure Config where
  /-- The number of waiting notices at which a store warns of slow observers. -/
  warnDepth : Nat := 4096
  /-- Milliseconds that a transport gets on top of the delay of a sync request. -/
  syncTimeout : Nat := 30000
  limits : Limits := {}
  deriving DecidableEq, Repr

namespace Config

/-- Refuses settings that no store could run with. -/
def check (c : Config) : Except Status Unit :=
  if c.warnDepth = 0 then .error (.invalidArgument "dispatch_warn_depth must be at least 1")
  else if c.limits.observers = 0 then
    .error (.invalidArgument "limits.max_observers must be at least 1")
  else .ok ()

end Config

end PeerStore
