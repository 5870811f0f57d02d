import PeerStore.Record
import PeerStore.Status
import PeerStore.Table

/-!
# Backends

A `Backend` holds records in ascending key order, together with an index from each device to
the keys it wrote last. Writes may be made to fail, and then change nothing.
-/

set_option autoImplicit false

namespace PeerStore

/-- Index from devices to keys. -/
abbrev DeviceIndex := Table String (KeySet Blob)

namespace DeviceIndex

/-- The keys of a device. -/
def keysOf (i : DeviceIndex) (device : String) : KeySet Blob := (i.get? device).getD Table.empty

/-- Adds a key to a device. -/
def add (i : DeviceIndex) (device : String) (key : Blob) : DeviceIndex :=
  i.insert device ((i.keysOf device).add key)

/-- Removes a key from a device, and the device with its last key. -/
def remove (i : DeviceIndex) (device : String) (key : Blob) : DeviceIndex :=
  match i.get? device with
  | none => i
  | some keys =>
      let keys := keys.erase key
      if keys.isEmpty then i.erase device else i.insert device keys

end DeviceIndex

/-- The records of a backend, with their device index. -/
structure Tables where
  records : Table Blob Stored := Table.empty
  byDevice : DeviceIndex := Table.empty
  deriving DecidableEq

namespace Tables

/-- Writes one record; the key moves from the device that wrote it before to the one that
writes it now. -/
def put (t : Tables) (key : Blob) (s : Stored) : Tables where
  records := t.records.insert key s
  byDevice :=
    (match t.records.get? key with
      | some old => if old.device = s.device then t.byDevice else t.byDevice.remove old.device key
      | none => t.byDevice).add s.device key

/-- Removes one record, if it is there. -/
def remove (t : Tables) (key : Blob) : Tables :=
  match t.records.get? key with
  | none => t
  | some old =>
      { records := t.records.erase key, byDevice := t.byDevice.remove old.device key }

/-- Writes records in order. -/
def putAll (t : Tables) (records : List Record) : Tables :=
  records.foldl (fun t r => t.put r.key r.toStored) t

/-- Removes keys in order. -/
def removeAll (t : Tables) (keys : List Blob) : Tables := keys.foldl remove t

end Tables

/-- A persistence engine in memory. -/
structure Backend extends Tables where
  /-- Whether writes fail. -/
  failing : Bool := false
  deriving DecidableEq

namespace Backend

/-- The failure of writes that are made to fail. -/
def writeFailure : Status := .backend "injected write failure"

/-- Changes the tables, unless writes fail. -/
def write (b : Backend) (f : Tables → Tables) : Except Status Backend :=
  if b.failing then .error writeFailure else .ok { b with toTables := f b.toTables }

/-! ## Writing -/

/-- Writes entries, stamped with a time and a device, and then removes keys. -/
def apply (b : Backend) (puts : List Entry) (deletes : List Blob) (time : Int)
    (device : String) : Except Status Backend :=
  b.write fun t => (t.putAll (puts.map fun e => { e with time, device })).removeAll deletes

/-- Writes entries. -/
def putBatch (b : Backend) (puts : List Entry) (time : Int) (device : String) :
    Except Status Backend :=
  b.apply puts [] time device

/-- Removes keys; absent ones do not matter. -/
def deleteBatch (b : Backend) (keys : List Blob) : Except Status Backend := b.apply [] keys 0 ""

/-- Writes records back as they are and then removes keys. -/
def restore (b : Backend) (records : List Record) (deletes : List Blob) :
    Except Status Backend :=
  b.write fun t => (t.putAll records).removeAll deletes

/-! ## Reading -/

/-- The record under a key. -/
def get? (b : Backend) (key : Blob) : Option Record :=
  (b.records.get? key).map (Record.ofStored key)

/-- All records, in ascending key order. -/
def snapshot (b : Backend) : List Record := b.records.toList.map fun e => .ofStored e.1 e.2

/-- The records whose key begins with a prefix: from the first key that is not before the prefix,
as long as keys begin with it. -/
def scanPrefix (b : Backend) (pfx : Blob) : List Record :=
  ((b.records.toList.dropWhile fun e => Blob.before e.1 pfx).takeWhile fun e =>
    e.1.startsWith pfx).map fun e => .ofStored e.1 e.2

/-- The keys whose last write came from a device, by the index. -/
def keysFromDevice (b : Backend) (device : String) : List Blob := (b.byDevice.keysOf device).keys

/-- The keys whose last write came from a device, by looking at every record. -/
def scanDevice (b : Backend) (device : String) : List Blob :=
  (b.snapshot.filter (·.device == device)).map (·.key)

/-- The number of records. -/
def size (b : Backend) : Nat := b.records.size

/-- Whether there is no record. -/
def isEmpty (b : Backend) : Bool := b.records.isEmpty

/-- Removes everything, and gives what was there, in ascending key order. -/
def clear (b : Backend) : Except Status (List Record × Backend) :=
  (b.write fun _ => {}).map fun b' => (b.snapshot, b')

end Backend

end PeerStore
