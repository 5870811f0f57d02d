import PeerStore.Blob

/-!
# Key spaces

A shared store keeps user keys as they are. A store that keeps devices apart puts the id of the
owning device in front of each key, so that the data of all devices lie side by side. Keys that
leave a store are user keys again.
-/

set_option autoImplicit false

namespace PeerStore

/-- How user keys become stored keys. -/
inductive KeySpace where
  /-- Stored keys are user keys. -/
  | shared
  /-- A stored key is the owner's device id followed by the user key; `self` is the device
  this process runs on. -/
  | perDevice (self : String)
  deriving DecidableEq, Repr

namespace KeySpace

/-- Whether devices are kept apart. -/
def isPerDevice : KeySpace → Bool
  | shared => false
  | perDevice _ => true

/-- The stored form of a key, or of a key prefix, of this device. -/
def ownKey : KeySpace → Blob → Blob
  | shared, key => key
  | perDevice self, key => Blob.ofString self ++ key

/-- The stored form of a key received from `device`. -/
def remoteKey : KeySpace → String → Blob → Blob
  | shared, _, key => key
  | perDevice _, device, key => Blob.ofString device ++ key

/-- The user form of a stored key that `device` wrote. A key outside the space of `device` is
returned as it is. -/
def userKey : KeySpace → String → Blob → Blob
  | shared, _, key => key
  | perDevice _, device, key => (Blob.dropPrefix? key (Blob.ofString device)).getD key

/-- The stored form of a key keeps the key for the device that it was stored for. -/
theorem userKey_remoteKey (space : KeySpace) (device : String) (key : Blob) :
    space.userKey device (space.remoteKey device key) = key := by
  cases space with
  | shared => rfl
  | perDevice self => simp [userKey, remoteKey, Blob.dropPrefix?_append]

/-- In a store that keeps devices apart, the keys of this device are kept as those of any other. -/
theorem ownKey_eq_remoteKey (self : String) (key : Blob) :
    (perDevice self).ownKey key = (perDevice self).remoteKey self key := rfl

end KeySpace

end PeerStore
