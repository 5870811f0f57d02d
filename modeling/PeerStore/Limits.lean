import PeerStore.Blob
import PeerStore.Status

/-!
# Size limits

`Limits` bounds keys, values, query texts and the number of observers of a store. The length
checks return a `LimitError`; keys have two more rules, in `PeerStore.Key`.
-/

set_option autoImplicit false

namespace PeerStore

/-- Size limits of a store, in bytes where they bound a length. -/
structure Limits where
  /-- Longest key of a store that is shared by all devices. -/
  keyBytes : Nat := 1024
  /-- Longest key of a store that keeps devices apart. -/
  deviceKeyBytes : Nat := 896
  /-- Longest value. -/
  valueBytes : Nat := 4 * 1024 * 1024
  /-- Longest query text. -/
  queryBytes : Nat := 5 * 1024
  /-- Most clauses in a query text. -/
  queryClauses : Nat := 500
  /-- Most observers of one store. -/
  observers : Nat := 8
  deriving DecidableEq, Repr, Inhabited

/-- A length or a count above its limit. -/
inductive LimitError where
  | keyTooLong (actual max : Nat)
  | valueTooLarge (actual max : Nat)
  | queryTooLong (actual max : Nat)
  | queryTooComplex (max : Nat)
  deriving DecidableEq, Repr

namespace LimitError

/-- The short name of the broken limit. -/
def reason : LimitError → String
  | keyTooLong .. => "key_too_long"
  | valueTooLarge .. => "value_too_large"
  | queryTooLong .. => "query_too_long"
  | queryTooComplex .. => "query_too_complex"

/-- The wording shown to callers. -/
def message : LimitError → String
  | keyTooLong actual max => "Key too long: " ++ exceeding actual max
  | valueTooLarge actual max => "Value too large: " ++ exceeding actual max
  | queryTooLong actual max => "Query too long: " ++ exceeding actual max
  | queryTooComplex max => "Query too complex: more than " ++ toString max ++ " clauses"
where
  exceeding (actual max : Nat) : String :=
    toString actual ++ " bytes exceeds maximum " ++ toString max

/-- A broken limit is a malformed argument. -/
def status (e : LimitError) : Status := .invalidArgument e.message

end LimitError

namespace Limits

/-- Small limits, at which every check is easily exceeded. -/
def small : Limits where
  keyBytes := 16
  deviceKeyBytes := 12
  valueBytes := 64
  queryBytes := 256
  queryClauses := 8
  observers := 2

/-- The longest key, for a store that keeps devices apart or one that does not. -/
def keyLimit (l : Limits) (perDevice : Bool) : Nat :=
  if perDevice then l.deviceKeyBytes else l.keyBytes

/-- Checks the length of a key. -/
def checkKeyLength (l : Limits) (perDevice : Bool) (key : Blob) : Except LimitError Unit :=
  if key.length ≤ l.keyLimit perDevice then .ok ()
  else .error (.keyTooLong key.length (l.keyLimit perDevice))

/-- Checks the length of a value. -/
def checkValue (l : Limits) (value : Blob) : Except LimitError Unit :=
  if value.length ≤ l.valueBytes then .ok ()
  else .error (.valueTooLarge value.length l.valueBytes)

/-- Checks the length of a query text, in bytes. -/
def checkQuery (l : Limits) (text : String) : Except LimitError Unit :=
  if text.utf8ByteSize ≤ l.queryBytes then .ok ()
  else .error (.queryTooLong text.utf8ByteSize l.queryBytes)

end Limits

end PeerStore
