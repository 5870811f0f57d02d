import PeerStore.Toml.Decode

/-!
# The configuration file

A manager reads its configuration from a file, and writes a commented file of defaults if there
is none. A file is its text here, and a missing file is `none`.
-/

set_option autoImplicit false

namespace PeerStore.ConfigFile

/-- The text of the file that is written when there is none. -/
def standard : String :=
  "# replikv store manager configuration\n" ++
  "#\n" ++
  "# Pending change notifications at which a store warns about a slow observer.\n" ++
  "# The queue itself is unbounded; notifications are never dropped.\n" ++
  "dispatch_warn_depth = 4096\n" ++
  "\n" ++
  "# Milliseconds the sync engine gets on top of a request's allowed delay\n" ++
  "# before unreported devices time out.\n" ++
  "sync_timeout_ms = 30000\n" ++
  "\n" ++
  "# Size and subscription limits (defaults shown).\n" ++
  "# [limits]\n" ++
  "# max_key_bytes = 1024\n" ++
  "# max_device_key_bytes = 896\n" ++
  "# max_value_bytes = 4194304\n" ++
  "# max_query_bytes = 5120\n" ++
  "# max_query_complexity = 500\n" ++
  "# max_observers = 8\n"

/-- Reads and checks the configuration in a file. -/
def load (file : Option String) : Except Status Config :=
  match file with
  | none => .error (.backend "Failed to read config file")
  | some text =>
      match (Toml.read? text).bind fun ms => Toml.config? (.table .header ms) with
      | none => .error (.invalidArgument "Failed to parse config file")
      | some c =>
          match c.check with
          | .ok () => .ok c
          | .error e => .error e

/-- Loads the configuration, after writing the standard file if there is none. Gives the text of
the file too. -/
def loadOrCreate (file : Option String) : Except Status Config × String :=
  let text := file.getD standard
  (load (some text), text)

/-- A line that sets a number. -/
def line (name : String) (n : Nat) : String := name ++ " = " ++ toString n ++ "\n"

/-- Whether all numbers of a configuration can be written: they are integers of 64 bits. -/
def isWritable (c : Config) : Bool :=
  [c.warnDepth, c.syncTimeout, c.limits.keyBytes, c.limits.deviceKeyBytes, c.limits.valueBytes,
    c.limits.queryBytes, c.limits.queryClauses, c.limits.observers].all (· < Nat.pow 2 63)

/-- The text of the file that holds a configuration. -/
def write (c : Config) : Except Status String :=
  if isWritable c then
    .ok (line "dispatch_warn_depth" c.warnDepth ++
      line "sync_timeout_ms" c.syncTimeout ++
      "\n[limits]\n" ++
      line "max_key_bytes" c.limits.keyBytes ++
      line "max_device_key_bytes" c.limits.deviceKeyBytes ++
      line "max_value_bytes" c.limits.valueBytes ++
      line "max_query_bytes" c.limits.queryBytes ++
      line "max_query_complexity" c.limits.queryClauses ++
      line "max_observers" c.limits.observers)
  else .error (.backend "Failed to serialize config: out-of-range value for u64 type")

end PeerStore.ConfigFile
