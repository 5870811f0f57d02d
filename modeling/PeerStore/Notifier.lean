import PeerStore.Dispatcher
import PeerStore.Notice
import PeerStore.Subscription

/-!
# Notifiers

A `Notifier` delivers notices to the observers of a store. Who receives a notice is settled when
it is queued; the dispatcher delivers it later, to one observer after the other. An observer that
crashes ends the delivery of that notice, and of no other.
-/

set_option autoImplicit false

namespace PeerStore

/-- A notice on its way, with the observers that receive it. -/
structure Delivery where
  targets : List String
  notice : Notice
  deriving DecidableEq, Repr

/-- Which observers crash: the calls of observers are counted from 0, and `crashes n o` says
whether the `n`-th call crashes when it goes to `o`. -/
abbrev Crashes := Nat → String → Bool

/-- The observers of a store with the notices on their way. -/
structure Notifier where
  registry : Registry
  dispatcher : Dispatcher Delivery := {}
  crashes : Crashes
  /-- Every call of an observer so far. -/
  seen : List (String × Notice) := []

namespace Notifier

/-- A notifier for at most `max` observers. -/
def ofMax (max : Nat) (crashes : Crashes) : Notifier := { registry := { max }, crashes }

/-- Subscribes an observer. -/
def subscribe (n : Notifier) (observer : String) (scope : Scope) : Except Status Notifier :=
  (n.registry.subscribe observer scope).map fun registry => { n with registry }

/-- Unsubscribes an observer. -/
def unsubscribe (n : Notifier) (observer : String) (scope : Scope) : Except Status Notifier :=
  (n.registry.unsubscribe observer scope).map fun registry => { n with registry }

/-- Queues a notice for the observers whose scope includes its origin, and tells how many they
are. An empty notice goes to nobody, and neither does any after shutdown. -/
def notify (n : Notifier) (origin : Origin) (notice : Notice) : Nat × Notifier :=
  if notice.isEmpty then (0, n)
  else
    match n.registry.targets origin with
    | [] => (0, n)
    | targets =>
        match n.dispatcher.submit ⟨targets, notice⟩ with
        | .ok dispatcher => (targets.length, { n with dispatcher })
        | .error _ => (0, n)

/-! ## Delivery -/

/-- The calls so far after a notice has gone to observers in turn, up to one that crashes. -/
def callAll (crashes : Crashes) (notice : Notice) :
    List String → List (String × Notice) → List (String × Notice)
  | [], seen => seen
  | o :: os, seen =>
      if crashes seen.length o then seen ++ [(o, notice)]
      else callAll crashes notice os (seen ++ [(o, notice)])

/-- The worker delivers the next notice. -/
def deliverNext (n : Notifier) : Notifier :=
  match n.dispatcher.begin? with
  | none => n
  | some (d, dispatcher) =>
      { n with
        seen := callAll n.crashes d.notice d.targets n.seen
        dispatcher := dispatcher.finish }

/-- Delivers every queued notice. -/
def flush (n : Notifier) : Notifier := Nat.repeat deliverNext n.dispatcher.depth n

/-- Forgets all observers; notices on their way still reach them. -/
def clearSubscriptions (n : Notifier) : Notifier := { n with registry := n.registry.clear }

/-- Delivers what is queued and accepts no more. -/
def shutdown (n : Notifier) : Notifier := { n with dispatcher := n.dispatcher.stop }.flush

end Notifier

end PeerStore
