import PeerStore.Table

/-!
# Device directory

Devices are addressed by network id and known by a stable device id. The directory of a device
resolves network ids; its own id resolves to itself whatever is registered under it.
-/

set_option autoImplicit false

namespace PeerStore

/-- The device this process runs on, and the devices it can reach. -/
structure Directory where
  self : String
  devices : Table String String := Table.empty
  deriving DecidableEq

namespace Directory

/-- Makes a network id resolve to a device id. -/
def register (d : Directory) (network device : String) : Directory :=
  { d with devices := d.devices.insert network device }

/-- Forgets a network id; tells whether it was registered. -/
def unregister (d : Directory) (network : String) : Bool × Directory :=
  (d.devices.contains network, { d with devices := d.devices.erase network })

/-- The device id behind a network id. -/
def resolve? (d : Directory) (network : String) : Option String :=
  if network = d.self then some d.self else d.devices.get? network

/-- The registered network ids, ascending. -/
def online (d : Directory) : List String := d.devices.keys

end Directory

end PeerStore
