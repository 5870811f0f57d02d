import PeerStore.Query.Evaluate
import PeerStore.Store.Basic

/-!
# Reading

Look-ups, scans and queries, and the result sets made of them. A result set is a cursor over
entries that were read when it was opened; what is written later does not change it.
-/

set_option autoImplicit false

namespace PeerStore

/-- A query, or the text of one. -/
inductive Selection where
  | query (q : Query)
  | text (t : String)

/-- What a result set is made of. -/
inductive Source where
  /-- The entries whose key begins with a prefix. -/
  | keys (pfx : Blob)
  /-- The entries that a query selects. -/
  | selection (s : Selection)

namespace Session

/-! ## Look-ups and scans -/

/-- The value of a key. -/
def get (s : Session) (key : Blob) : Result Blob :=
  s.after (s.checkKey key) fun s =>
    s.whenOpen fun s =>
      match s.backend.get? (s.space.ownKey key) with
      | some r => (.ok r.value, s)
      | none => (.error .keyNotFound, s)

/-- The entries of this device, or of a shared store, whose key begins with a prefix; in
ascending order of stored keys. -/
def entries (s : Session) (pfx : Blob) : Result (List Entry) :=
  s.after (s.checkKeyPrefix pfx) fun s =>
    s.whenOpen fun s =>
      (.ok ((s.backend.scanPrefix (s.space.ownKey pfx)).map s.userEntry), s)

/-! ## Queries -/

/-- The compiler for query texts. -/
def compiler (s : Session) : Query.Compiler :=
  { limits := s.profile.limits, directory := some s.directory }

/-- The query of a selection. -/
def queryOf (s : Session) : Selection → Except Status Query
  | .query q => .ok q
  | .text t => (s.compiler.compile t).result

/-- The records that a plan may select: those with its key prefix, or all. -/
def candidates (s : Session) (p : Query.Plan) : List Record :=
  match p.keyPrefix with
  | some pfx => s.backend.scanPrefix pfx
  | none => s.backend.snapshot

/-- The records that a query selects. -/
def runQuery (s : Session) (q : Query) : Result (List Record) :=
  match q.plan? with
  | .error e => (.error e.status, s)
  | .ok p => s.whenOpen fun s => (.ok (p.evaluate (s.candidates p)), s)

/-- The records that a selection selects. -/
def select (s : Session) (selection : Selection) : Result (List Record) :=
  match s.queryOf selection with
  | .error e => (.error e, s)
  | .ok q => s.runQuery q

/-- The entries that a selection selects. -/
def query (s : Session) (selection : Selection) : Result (List Entry) :=
  match s.select selection with
  | (.ok records, s) => (.ok (records.map s.userEntry), s)
  | (.error e, s) => (.error e, s)

/-- The number of entries that a selection selects. -/
def count (s : Session) (selection : Selection) : Result Nat :=
  match s.select selection with
  | (.ok records, s) => (.ok records.length, s)
  | (.error e, s) => (.error e, s)

/-! ## Result sets -/

/-- The entries of a result set. -/
def read (s : Session) : Source → Result (List Entry)
  | .keys pfx => s.entries pfx
  | .selection selection => s.query selection

/-- Forgets the cursors that are no longer in use and open. -/
def prune (s : Session) : Session :=
  { s with cursors := s.cursors.filter fun id _ => s.shelf.isOpen id }

/-- Opens a result set; gives the number of its cursor. -/
def openResultSet (s : Session) (source : Source) : Result Nat :=
  match s.read source with
  | (.ok entries, s) =>
      let s := s.prune
      let (id, shelf) := s.shelf.add (Cursor.ofEntries entries)
      (.ok id, { s with shelf, cursors := s.cursors.add id })
  | (.error e, s) => (.error e, s)

/-- Closes a result set that the store gave out and that is still open. -/
def closeResultSet (s : Session) (id : Nat) : Result Unit :=
  s.whenOpen fun s =>
    let here := s.cursors.contains id && s.shelf.isOpen id
    let s := { s with cursors := s.cursors.erase id }
    if here then (.ok (), { s with shelf := s.shelf.close id })
    else (.error (.invalidArgument "result set is not open on this store"), s)

/-- The number of result sets that the store gave out and that are still open. The store forgets the
others as it counts, which changes nothing that it answers. -/
def openResultSets (s : Session) : Nat := s.prune.cursors.size

end Session

end PeerStore
