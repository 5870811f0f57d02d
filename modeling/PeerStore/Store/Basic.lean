import PeerStore.Config
import PeerStore.Key
import PeerStore.Notifier
import PeerStore.Options
import PeerStore.Query.Compile
import PeerStore.Shelf
import PeerStore.Store.Batch
import PeerStore.Sync
import PeerStore.Transaction

/-!
# Stores and sessions

A `Store` is the state of one handle: its transaction, its observers, the result sets it gave
out. What it uses and shares with other handles are its `Services`: a backend, the directory of
devices, the transport for syncs, and the shelf of cursors. An operation needs both at once, so
operations are functions on a `Session`, and give an outcome together with the session after
them. A session that an operation has failed on goes on.
-/

set_option autoImplicit false

namespace PeerStore

/-- What is settled when a store is opened. -/
structure Profile where
  app : String
  id : String
  options : Options
  limits : Limits
  /-- The device id that the store writes as. -/
  device : String
  deriving DecidableEq, Repr

/-- How the store keeps keys. -/
def Profile.space (p : Profile) : KeySpace :=
  if p.options.isPerDevice then .perDevice p.device else .shared

/-- The state of one handle. -/
structure Store where
  profile : Profile
  isOpen : Bool := true
  transaction : Transaction := {}
  notifier : Notifier
  /-- Every notice published so far, with its origin. -/
  published : List (Origin × Notice) := []
  /-- Who is told the results of syncs. -/
  callback : Option String := none
  /-- The numbers of the cursors given out. -/
  cursors : KeySet Nat := Table.empty
  /-- The time of the last batch that was written; 0 before the first. -/
  lastWrite : Int := 0

/-- Opens a store, after a check of its options and settings. -/
def Store.openWith (app id : String) (options : Options) (config : Config)
    (directory : Directory) (crashes : Crashes) : Except Status Store :=
  match options.check, config.check with
  | .error e, _ => .error e
  | .ok (), .error e => .error e
  | .ok (), .ok () =>
      .ok
        { profile := ⟨app, id, options, config.limits, directory.self⟩
          notifier := Notifier.ofMax config.limits.observers crashes }

/-- What a store uses and shares with others. -/
structure Services where
  backend : Backend
  directory : Directory
  /-- The transport for syncs, if there is one. -/
  link : Option SyncLink
  shelf : Shelf

/-- A store at work. -/
structure Session extends Store, Services

namespace Session

variable {α : Type}

/-- The outcome of an operation, and the session after it. -/
abbrev Result (α : Type) := Except Status α × Session

/-- Makes a check and then, if it succeeds, an operation. -/
def after (s : Session) (check : Except Status Unit) (op : Session → Result α) : Result α :=
  match check with
  | .ok () => op s
  | .error e => (.error e, s)

/-- Refuses a store that is closed. -/
def requireOpen (s : Session) : Except Status Unit :=
  if s.isOpen then .ok () else .error (.storeNotOpen s.profile.id)

/-- Makes an operation on an open store only. -/
def whenOpen (s : Session) (op : Session → Result α) : Result α := s.after s.requireOpen op

/-- How the store keeps keys. -/
def space (s : Session) : KeySpace := s.profile.space

/-- Checks a user key. -/
def checkKey (s : Session) (key : Blob) : Except Status Unit :=
  (PeerStore.checkKey s.profile.limits s.space.isPerDevice key).mapError KeyError.status

/-- Checks the prefix of a user key. -/
def checkKeyPrefix (s : Session) (pfx : Blob) : Except Status Unit :=
  (PeerStore.checkKeyPrefix s.profile.limits s.space.isPerDevice pfx).mapError KeyError.status

/-- Checks a value. -/
def checkValue (s : Session) (value : Blob) : Except Status Unit :=
  (s.profile.limits.checkValue value).mapError LimitError.status

/-- Checks an entry, its key first. -/
def checkEntry (s : Session) (e : Entry) : Except Status Unit :=
  match s.checkKey e.key with
  | .ok () => s.checkValue e.value
  | .error e => .error e

/-- Makes a check of each item; the first failure counts. -/
def checkAll {α : Type} (check : α → Except Status Unit) : List α → Except Status Unit
  | [] => .ok ()
  | a :: as =>
      match check a with
      | .ok () => checkAll check as
      | .error e => .error e

/-- A record as users see it. -/
def userEntry (s : Session) (r : Record) : Entry := ⟨s.space.userKey r.device r.key, r.value⟩

/-- The device id of an origin. -/
def deviceOf (s : Session) : Origin → String
  | .here => s.profile.device
  | .remote device => device

/-- The level that the store was opened with. -/
def securityLevel (s : Session) : Result SecurityLevel :=
  s.whenOpen fun s => (.ok s.profile.options.security, s)

end Session

end PeerStore
