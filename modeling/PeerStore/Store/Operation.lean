import PeerStore.Store.Read
import PeerStore.Store.Transact
import PeerStore.Store.Write

/-!
# Operations

`Operation` lists everything that can be asked of a store and may fail, and `Session.perform`
does it. A run of a store is a list of operations, each with what the clock reads.
-/

set_option autoImplicit false

namespace PeerStore

/-- What can be asked of a store. -/
inductive Operation where
  | put (key value : Blob)
  | putBatch (entries : List Entry)
  | delete (key : Blob)
  | deleteBatch (keys : List Blob)
  | clear
  | removeDeviceData (network : String)
  | applyRemote (device : String) (puts : List Entry) (deletes : List Blob)
  | get (key : Blob)
  | entries (pfx : Blob)
  | query (selection : Selection)
  | count (selection : Selection)
  | openResultSet (source : Source)
  | closeResultSet (id : Nat)
  | startTransaction
  | commit
  | rollback
  | subscribe (observer : String) (scope : Scope)
  | unsubscribe (observer : String) (scope : Scope)
  | registerCallback (callback : String)
  | unregisterCallback
  | sync (networks : List String) (mode : SyncMode) (delay : Nat)
  | syncWithQuery (networks : List String) (mode : SyncMode) (query : Query)
      (callback : Option String)
  | securityLevel

/-- What an operation that succeeds gives. -/
inductive Answer where
  | done
  | value (v : Blob)
  | entries (es : List Entry)
  | count (n : Nat)
  /-- The number of the cursor of a new result set. -/
  | cursor (id : Nat)
  /-- The number of a sync request. -/
  | sequence (n : Nat)
  | level (l : SecurityLevel)

namespace Session

/-- Turns what an operation gives into an answer. -/
def Result.answer {α : Type} (f : α → Answer) : Result α → Result Answer
  | (.ok a, s) => (.ok (f a), s)
  | (.error e, s) => (.error e, s)

/-- Performs an operation at the time that the clock reads. -/
def perform (s : Session) (now : Int) : Operation → Result Answer
  | .put key value => (s.put now key value).answer fun _ => .done
  | .putBatch entries => (s.putBatch now entries).answer fun _ => .done
  | .delete key => (s.delete now key).answer fun _ => .done
  | .deleteBatch keys => (s.deleteBatch now keys).answer fun _ => .done
  | .clear => (s.clear now).answer fun _ => .done
  | .removeDeviceData network => (s.removeDeviceData now network).answer fun _ => .done
  | .applyRemote device puts deletes =>
      (s.applyRemote now device puts deletes).answer fun _ => .done
  | .get key => (s.get key).answer .value
  | .entries pfx => (s.entries pfx).answer .entries
  | .query selection => (s.query selection).answer .entries
  | .count selection => (s.count selection).answer .count
  | .openResultSet source => (s.openResultSet source).answer .cursor
  | .closeResultSet id => (s.closeResultSet id).answer fun _ => .done
  | .startTransaction => s.startTransaction.answer fun _ => .done
  | .commit => s.commit.answer fun _ => .done
  | .rollback => s.rollback.answer fun _ => .done
  | .subscribe observer scope => (s.subscribe observer scope).answer fun _ => .done
  | .unsubscribe observer scope => (s.unsubscribe observer scope).answer fun _ => .done
  | .registerCallback callback => (s.registerCallback callback).answer fun _ => .done
  | .unregisterCallback => s.unregisterCallback.answer fun _ => .done
  | .sync networks mode delay => (s.sync networks mode delay).answer .sequence
  | .syncWithQuery networks mode query callback =>
      (s.syncWithQuery networks mode query callback).answer .sequence
  | .securityLevel => s.securityLevel.answer .level

end Session

end PeerStore
