import PeerStore.Status
import PeerStore.Text.Blank

/-!
# Options of a store

`Options` say how a store is opened. `Options.check` is made once, before it is.
-/

set_option autoImplicit false

namespace PeerStore

/-- The kind of a store. -/
inductive StoreKind where
  /-- Every device has keys of its own. -/
  | deviceCollaboration
  /-- One value for each key, shared by all devices. -/
  | singleVersion
  /-- Reserved. -/
  | multiVersion
  deriving DecidableEq, Repr

/-- The label of a store's data, from the lowest. -/
inductive SecurityLevel where
  | noLabel
  | s0
  | s1
  | s2
  | s3
  | s4
  deriving DecidableEq, Repr

/-- The storage area of a store. -/
inductive Area where
  | el0
  | el1
  | el2
  | el3
  | el4
  deriving DecidableEq, Repr

/-- The kind of a sync policy. -/
inductive PolicyKind where
  /-- Keep syncing with devices that come online within so many seconds of the last write. -/
  | termOfSyncValidity
  deriving DecidableEq, Repr

/-! ## Names -/

namespace StoreKind

def all : List StoreKind := [deviceCollaboration, singleVersion, multiVersion]

/-- How a kind is written. -/
def name : StoreKind → String
  | deviceCollaboration => "device_collaboration"
  | singleVersion => "single_version"
  | multiVersion => "multi_version"

end StoreKind

namespace SecurityLevel

def all : List SecurityLevel := [noLabel, s0, s1, s2, s3, s4]

/-- How a label is written. -/
def name : SecurityLevel → String
  | noLabel => "no_label"
  | s0 => "s0"
  | s1 => "s1"
  | s2 => "s2"
  | s3 => "s3"
  | s4 => "s4"

end SecurityLevel

namespace Area

def all : List Area := [el0, el1, el2, el3, el4]

/-- How an area is written. -/
def name : Area → String
  | el0 => "el0"
  | el1 => "el1"
  | el2 => "el2"
  | el3 => "el3"
  | el4 => "el4"

end Area

namespace PolicyKind

def all : List PolicyKind := [termOfSyncValidity]

/-- How a policy kind is written. -/
def name : PolicyKind → String
  | termOfSyncValidity => "term_of_sync_validity"

end PolicyKind

/-! ## Options -/

/-- A sync policy with its parameter. -/
structure SyncPolicy where
  kind : PolicyKind
  value : UInt32
  deriving DecidableEq, Repr

/-- How a store is opened. -/
structure Options where
  /-- Create the store if it does not exist. -/
  createIfMissing : Bool := true
  encrypt : Bool := false
  /-- Keep the data when the store is closed. -/
  persistent : Bool := true
  /-- Start a sync after every change made here. -/
  autoSync : Bool := false
  security : SecurityLevel := .s1
  area : Area := .el1
  kind : StoreKind := .singleVersion
  schema : Option String := none
  baseDir : String := ""
  policies : List SyncPolicy := []
  deriving DecidableEq, Repr

namespace Options

/-- Options of a store that is not kept. -/
def inMemory : Options where
  persistent := false

/-- Whether the store keeps devices apart. -/
def isPerDevice (o : Options) : Bool := o.kind == .deviceCollaboration

/-- Checks options before a store is opened with them. -/
def check (o : Options) : Except Status Unit :=
  if o.kind = .multiVersion then .error (.notSupported "multi-version stores are reserved")
  else if o.persistent && isBlank o.baseDir then
    .error (.invalidArgument "persistent store requires a base directory")
  else if o.schema.any isBlank then .error (.invalidArgument "schema must not be blank")
  else .ok ()

/-- The term of sync validity in seconds: that of the first policy that sets one. -/
def syncValidity? (o : Options) : Option UInt32 :=
  (o.policies.find? fun p => p.kind == .termOfSyncValidity && p.value != 0).map (·.value)

end Options

end PeerStore
