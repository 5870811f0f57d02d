import PeerStore.Store.Publish

/-!
# Writing

Every write is a batch. A batch is checked as a whole, then written at one time that no earlier
batch of the store has, and then announced. `now` is what the clock reads.
-/

set_option autoImplicit false

namespace PeerStore.Session

/-! ## Batches -/

/-- Writes effects to the backend as the work of a device. A batch that does nothing needs no
time and does not reach the backend. -/
def writeEffects (s : Session) (now : Int) (effects : List Effect) (device : String) :
    Result Unit :=
  let puts := effects.filterMap Effect.put?
  let deletes := effects.filterMap Effect.removed?
  if puts.isEmpty && deletes.isEmpty then (.ok (), s)
  else
    let time := max now (s.lastWrite + 1)
    match s.backend.apply puts deletes time device with
    | .ok backend => (.ok (), { s with lastWrite := time, backend })
    | .error e => (.error e, { s with lastWrite := time })

/-- Notes what keys held before their first touch by the transaction, if one is active. -/
def touchAll (s : Session) (effects : List Effect) : Session :=
  { s with transaction := effects.foldl (fun t e => (t.touch e.key e.prior).2) s.transaction }

/-- Writes a batch and gives the notice of it. Batches of other devices are no part of a
transaction. -/
def applyBatch (s : Session) (now : Int) (batch : List Write) (origin : Origin) : Result Notice :=
  let effects := Effect.ofBatch s.backend batch
  let device := s.deviceOf origin
  let notice := Notice.classify (effects.map (Effect.change s.space device)) device
  match s.writeEffects now effects device with
  | (.ok (), s) => (.ok notice, if origin = .here then s.touchAll effects else s)
  | (.error e, s) => (.error e, s)

/-- Writes a batch on an open store and announces it. -/
def mutate (s : Session) (now : Int) (batch : List Write) (origin : Origin) : Result Unit :=
  s.whenOpen fun s =>
    match s.applyBatch now batch origin with
    | (.ok notice, s) => (.ok (), s.announce origin notice)
    | (.error e, s) => (.error e, s)

/-! ## Operations -/

/-- Writes one entry. -/
def put (s : Session) (now : Int) (key value : Blob) : Result Unit :=
  s.after (s.checkEntry ⟨key, value⟩) fun s =>
    s.mutate now [.put (s.space.ownKey key) value] .here

/-- Writes several entries as one batch. -/
def putBatch (s : Session) (now : Int) (entries : List Entry) : Result Unit :=
  s.after (checkAll s.checkEntry entries) fun s =>
    s.mutate now (entries.map fun e => .put (s.space.ownKey e.key) e.value) .here

/-- Removes a key; it need not be there. -/
def delete (s : Session) (now : Int) (key : Blob) : Result Unit :=
  s.after (s.checkKey key) fun s => s.mutate now [.remove (s.space.ownKey key)] .here

/-- Removes several keys as one batch. -/
def deleteBatch (s : Session) (now : Int) (keys : List Blob) : Result Unit :=
  s.after (checkAll s.checkKey keys) fun s =>
    s.mutate now (keys.map fun key => .remove (s.space.ownKey key)) .here

/-- Applies a batch received from another device: its puts, then its deletes. -/
def applyRemote (s : Session) (now : Int) (device : String) (puts : List Entry)
    (deletes : List Blob) : Result Unit :=
  if device.isEmpty || device == s.profile.device then
    (.error (.invalidArgument "remote batch needs a remote device id"), s)
  else
    s.after (checkAll s.checkEntry puts) fun s =>
      s.after (checkAll s.checkKey deletes) fun s =>
        s.mutate now
          (puts.map (fun e => .put (s.space.remoteKey device e.key) e.value) ++
            deletes.map fun key => .remove (s.space.remoteKey device key))
          (.remote device)

/-- The notice of a store that was emptied. -/
def clearNotice (s : Session) (removed : List Record) : Notice :=
  { deletes := removed.map s.userEntry, isClear := true, device := s.profile.device }

/-- Removes everything. Inside a transaction this is a batch that removes every key. -/
def clear (s : Session) (now : Int) : Result Unit :=
  s.whenOpen fun s =>
    if s.transaction.isActive then
      s.mutate now (s.backend.snapshot.map fun r => .remove r.key) .here
    else
      match s.backend.clear with
      | .ok (removed, backend) =>
          (.ok (), { s with backend }.announce .here (s.clearNotice removed))
      | .error e => (.error e, s)

/-- Removes what a device wrote last. Other devices are not told by an automatic sync. -/
def removeDeviceData (s : Session) (now : Int) (network : String) : Result Unit :=
  match s.directory.resolve? network with
  | none => (.error (unknownDevice network), s)
  | some device =>
      if device = s.profile.device then
        (.error (.invalidArgument "local device data cannot be removed"), s)
      else
        s.whenOpen fun s =>
          match s.applyBatch now ((s.backend.keysFromDevice device).map .remove) .here with
          | (.ok notice, s) => (.ok (), (s.publish .here notice).2)
          | (.error e, s) => (.error e, s)

end PeerStore.Session
