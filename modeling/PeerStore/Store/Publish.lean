import PeerStore.Store.Basic

/-!
# Observers and syncs of a store

Subscriptions, sync requests, and what follows a change: `publish` hands the notice to the
observers unless a transaction holds it back, and `announce` also starts a sync of a published
change made here, if the store was opened with automatic syncs.
-/

set_option autoImplicit false

namespace PeerStore.Session

/-! ## Subscriptions and callbacks -/

/-- Subscribes an observer to a scope. -/
def subscribe (s : Session) (observer : String) (scope : Scope) : Result Unit :=
  s.whenOpen fun s =>
    match s.notifier.subscribe observer scope with
    | .ok notifier => (.ok (), { s with notifier })
    | .error e => (.error e, s)

/-- Unsubscribes an observer from a scope. -/
def unsubscribe (s : Session) (observer : String) (scope : Scope) : Result Unit :=
  s.whenOpen fun s =>
    match s.notifier.unsubscribe observer scope with
    | .ok notifier => (.ok (), { s with notifier })
    | .error e => (.error e, s)

/-- Sets who is told the results of syncs. -/
def registerCallback (s : Session) (callback : String) : Result Unit :=
  s.whenOpen fun s => (.ok (), { s with callback := some callback })

/-- Leaves nobody to be told the results of syncs. -/
def unregisterCallback (s : Session) : Result Unit :=
  s.whenOpen fun s => (.ok (), { s with callback := none })

/-! ## Syncs -/

/-- The failure for a network id that resolves to no device. -/
def unknownDevice (network : String) : Status :=
  .invalidArgument ("unknown device '" ++ network ++ "'")

/-- The device ids behind network ids. -/
def resolveAll (d : Directory) : List String → Except Status (List String)
  | [] => .ok []
  | network :: networks =>
      match d.resolve? network with
      | none => .error (unknownDevice network)
      | some device => (resolveAll d networks).map (device :: ·)

/-- Hands a sync request to the transport; gives its number. -/
def startSync (s : Session) (networks : List String) (mode : SyncMode) (delay : Nat)
    (query : Option Query) (callback : Option String) : Result Nat :=
  s.whenOpen fun s =>
    match s.link, resolveAll s.directory networks with
    | none, _ => (.error (.notSupported "no sync engine configured"), s)
    | some _, .error e => (.error e, s)
    | some link, .ok devices =>
        let (seq, link) := link.start s.profile.id devices mode query delay callback
        (seq, { s with link := some link })

/-- Syncs with devices; the registered callback is told the results. -/
def sync (s : Session) (networks : List String) (mode : SyncMode) (delay : Nat) : Result Nat :=
  s.startSync networks mode delay none s.callback

/-- Syncs what a query selects. A callback given here takes the place of the registered one. -/
def syncWithQuery (s : Session) (networks : List String) (mode : SyncMode) (query : Query)
    (callback : Option String) : Result Nat :=
  s.startSync networks mode 0 (some query) (callback <|> s.callback)

/-- Pushes to every device that is online, if the store was opened with automatic syncs. Whether
that succeeds does not matter. -/
def pushOnline (s : Session) : Session :=
  if s.profile.options.autoSync && s.link.isSome && !s.directory.online.isEmpty then
    (s.startSync s.directory.online .push 0 none s.callback).2
  else s

/-! ## Notices -/

/-- Hands a notice to the observers, and tells whether it did. Empty notices are not published;
neither are changes made here while a transaction is active. -/
def publish (s : Session) (origin : Origin) (notice : Notice) : Bool × Session :=
  if notice.isEmpty || (s.transaction.isActive && origin == .here) then (false, s)
  else
    (true,
      { s with
        notifier := (s.notifier.notify origin notice).2
        published := s.published ++ [(origin, notice)] })

/-- Publishes a notice and, if it was of a change made here, starts an automatic sync. -/
def announce (s : Session) (origin : Origin) (notice : Notice) : Session :=
  match s.publish origin notice with
  | (true, s) => if origin = .here then s.pushOnline else s
  | (false, s) => s

end PeerStore.Session
