import PeerStore.Host
import PeerStore.Text.Blank

/-!
# Managers

A `Manager` knows the stores of all applications by application and id. A store that is open is
shared by all who ask for it. A persistent store keeps its backend when it is closed, and the next
one opened under its name finds it; the data of others are lost.

The calls of a manager and of its stores are taken one after the other, each as a whole.
`closeStore` and `deleteStore` take the number of a store from the table and close the store in one
step, so no other call comes between the two.
-/

set_option autoImplicit false

namespace PeerStore

/-- An application with the id of one of its stores. -/
abbrev StoreName := String × String

/-- A host whose stores are known by name. -/
structure Manager extends Host where
  config : Config
  /-- The numbers of the stores that were opened and not closed by name since. -/
  opened : Table StoreName Nat := Table.empty
  /-- The numbers of the backends of persistent stores. -/
  retained : Table StoreName Nat := Table.empty

namespace Manager

/-- A manager of the stores of a host, with settings that apply to all of them. -/
def ofHost? (host : Host) (config : Config) : Except Status Manager :=
  config.check.map fun _ => { host with config }

/-- Gives the stores of a manager a transport, with the timeout of the settings. -/
def withTransport (m : Manager) (transport : SyncRequest → Reply) : Manager :=
  { m with link := some { coordinator := { timeout := m.config.syncTimeout }, transport } }

/-- The number of characters that the id of a store may have. -/
def maxIdLength : Nat := 128

/-- The characters of the id of a store: ASCII letters, ASCII digits and the low line. -/
def isIdChar (c : Char) : Bool := c.isAlphanum || c == '_'

/-- Checks the name of a store. -/
def checkName (app id : String) : Except Status Unit :=
  if isBlank app then .error (.invalidArgument "app id must not be blank")
  else if id.isEmpty || maxIdLength < id.length then
    .error (.invalidArgument
      ("store id must be 1..=" ++ toString maxIdLength ++ " characters"))
  else if !id.toList.all isIdChar then
    .error (.invalidArgument "store id may only contain letters, digits and '_'")
  else .ok ()

/-! ## Opening -/

/-- The backend for a store to be opened: the retained one of its name, or a new one, which is
retained if the store is persistent. -/
def backendFor (m : Manager) (app id : String) (options : Options) :
    Except Status (Nat × Manager) :=
  match m.retained.get? (app, id) with
  | some backendId => .ok (backendId, m)
  | none =>
      if options.createIfMissing then
        let (backendId, host) := m.toHost.addBackend
        .ok (backendId,
          { m with
            toHost := host
            retained :=
              if options.persistent then m.retained.insert (app, id) backendId else m.retained })
      else .error (.storeNotFound id)

/-- Opens a store that is not open. -/
def openNew (m : Manager) (app id : String) (options : Options) : Except Status Nat × Manager :=
  match m.backendFor app id options with
  | .error e => (.error e, m)
  | .ok (backendId, m) =>
      match m.toHost.openStore app id options m.config backendId with
      | .error e => (.error e, m)
      | .ok (store, host) =>
          (.ok store, { m with toHost := host, opened := m.opened.insert (app, id) store })

/-- The store with a name: the open one, or one that is opened now. -/
def getStore (m : Manager) (app id : String) (options : Options) : Except Status Nat × Manager :=
  match checkName app id, options.check with
  | .error e, _ => (.error e, m)
  | .ok (), .error e => (.error e, m)
  | .ok (), .ok () =>
      match m.opened.get? (app, id) with
      | some store => (.ok store, m)
      | none => m.openNew app id options

/-! ## Closing -/

/-- Closes an open store and forgets its handle. -/
def closeStore (m : Manager) (app id : String) : Except Status Unit × Manager :=
  match m.opened.get? (app, id) with
  | none => (.error (.storeNotOpen id), m)
  | some store =>
      (.ok (), { m with toHost := m.toHost.closeStore store, opened := m.opened.erase (app, id) })

/-- The ids under which a table has stores of an application, ascending. -/
def idsOf (t : Table StoreName Nat) (app : String) : List String :=
  (t.keys.filter (·.1 == app)).map (·.2)

/-- Closes every open store of an application. -/
def closeAll (m : Manager) (app : String) : Manager :=
  (idsOf m.opened app).foldl (fun m id => (m.closeStore app id).2) m

/-! ## Deleting -/

/-- Deletes a store with its data, after closing it if it is open. -/
def deleteStore (m : Manager) (app id : String) : Except Status Unit × Manager :=
  match checkName app id with
  | .error e => (.error e, m)
  | .ok () =>
      if m.opened.contains (app, id) || m.retained.contains (app, id) then
        let m := (m.closeStore app id).2
        (.ok (), { m with retained := m.retained.erase (app, id) })
      else (.error (.storeNotFound id), m)

/-- The ids of the stores of an application that are open or retained, ascending. -/
def storeIds (m : Manager) (app : String) : List String :=
  (KeySet.ofList (idsOf m.opened app ++ idsOf m.retained app)).keys

/-- Deletes every store of an application. -/
def deleteAll (m : Manager) (app : String) : Manager :=
  (m.storeIds app).foldl (fun m id => (m.deleteStore app id).2) m

/-- The number of open stores of all applications. -/
def openCount (m : Manager) : Nat := m.opened.size

end Manager

end PeerStore
