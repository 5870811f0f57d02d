import PeerStore.Config
import PeerStore.Options
import PeerStore.Toml.Reader

/-!
# Settings from TOML

Options and configurations as records of a TOML document. Members that are missing have their
defaults, and members with other names do not matter. A record may also be written as a list of
its members in order.
-/

set_option autoImplicit false

namespace PeerStore.Toml

/-! ## Values of a type -/

/-- The members of a record whose members have the given names. -/
def Value.members? (names : List String) : Value → Option Members
  | .table _ ms => some ms
  | .list vs => some (names.zip vs)
  | .tables items => some (names.zip (items.reverse.map (.table .header)))
  | .datetime _ => some []
  | _ => none

/-- The items of a list. -/
def Value.items? : Value → Option (List Value)
  | .list vs => some vs
  | .tables items => some (items.reverse.map (.table .header))
  | _ => none

def Value.bool? : Value → Option Bool
  | .bool b => some b
  | _ => none

def Value.str? : Value → Option String
  | .str s => some s
  | _ => none

/-- A natural number below `2 ^ bits`. -/
def Value.nat? (bits : Nat) : Value → Option Nat
  | .int n => if 0 ≤ n && n.toNat < Nat.pow 2 bits then some n.toNat else none
  | _ => none

/-- Whether a value stands for nothing. -/
def Value.isUnit : Value → Bool
  | .table _ ms => ms.isEmpty
  | .list vs => vs.isEmpty
  | _ => false

/-- One of several named values: its name, or a table with the name as its only member. -/
def Value.named? {α : Type} (all : List α) (name : α → String) : Value → Option α
  | .str s => all.find? (name · == s)
  | .table _ [(s, v)] => if v.isUnit then all.find? (name · == s) else none
  | _ => none

/-- The value of a member, or its default if it is missing. -/
def Members.read? {α : Type} (ms : Members) (name : String) (missing : α)
    (decode : Value → Option α) : Option α :=
  match ms.get? name with
  | none => some missing
  | some v => decode v

/-! ## Settings -/

/-- Limits. -/
def limits? (v : Value) : Option Limits := do
  let ms ← v.members? ["max_key_bytes", "max_device_key_bytes", "max_value_bytes",
    "max_query_bytes", "max_query_complexity", "max_observers"]
  let standard : Limits := {}
  let keyBytes ← ms.read? "max_key_bytes" standard.keyBytes (·.nat? 64)
  let deviceKeyBytes ← ms.read? "max_device_key_bytes" standard.deviceKeyBytes (·.nat? 64)
  let valueBytes ← ms.read? "max_value_bytes" standard.valueBytes (·.nat? 64)
  let queryBytes ← ms.read? "max_query_bytes" standard.queryBytes (·.nat? 64)
  let queryClauses ← ms.read? "max_query_complexity" standard.queryClauses (·.nat? 64)
  let observers ← ms.read? "max_observers" standard.observers (·.nat? 64)
  some { keyBytes, deviceKeyBytes, valueBytes, queryBytes, queryClauses, observers }

/-- A configuration. -/
def config? (v : Value) : Option Config := do
  let ms ← v.members? ["dispatch_warn_depth", "sync_timeout_ms", "limits"]
  let standard : Config := {}
  let warnDepth ← ms.read? "dispatch_warn_depth" standard.warnDepth (·.nat? 64)
  let syncTimeout ← ms.read? "sync_timeout_ms" standard.syncTimeout (·.nat? 64)
  let limits ← ms.read? "limits" standard.limits limits?
  some { warnDepth, syncTimeout, limits }

/-- A sync policy; both members have to be there. -/
def policy? (v : Value) : Option SyncPolicy := do
  let ms ← v.members? ["kind", "value"]
  let kind ← (ms.get? "kind").bind (Value.named? PolicyKind.all PolicyKind.name)
  let value ← (ms.get? "value").bind (Value.nat? 32)
  some { kind, value := UInt32.ofNat value }

/-- Options. -/
def options? (v : Value) : Option Options := do
  let ms ← v.members? ["create_if_missing", "encrypt", "persistent", "auto_sync",
    "security_level", "area", "kv_store_type", "schema", "base_dir", "sync_policies"]
  let standard : Options := {}
  let createIfMissing ← ms.read? "create_if_missing" standard.createIfMissing Value.bool?
  let encrypt ← ms.read? "encrypt" standard.encrypt Value.bool?
  let persistent ← ms.read? "persistent" standard.persistent Value.bool?
  let autoSync ← ms.read? "auto_sync" standard.autoSync Value.bool?
  let security ← ms.read? "security_level" standard.security
    (Value.named? SecurityLevel.all SecurityLevel.name)
  let area ← ms.read? "area" standard.area (Value.named? Area.all Area.name)
  let kind ← ms.read? "kv_store_type" standard.kind (Value.named? StoreKind.all StoreKind.name)
  let schema ← ms.read? "schema" standard.schema fun v => v.str?.map some
  let baseDir ← ms.read? "base_dir" standard.baseDir Value.str?
  let policies ← ms.read? "sync_policies" standard.policies fun v =>
    v.items?.bind fun vs => vs.mapM policy?
  some { createIfMissing, encrypt, persistent, autoSync, security, area, kind, schema, baseDir,
         policies }

end PeerStore.Toml

namespace PeerStore

/-- Reads options from a TOML text. -/
def Options.ofText? (text : String) : Except Status Options :=
  match (Toml.read? text).bind fun ms => Toml.options? (.table .header ms) with
  | some o => .ok o
  | none => .error (.invalidArgument "Failed to parse options")

end PeerStore
