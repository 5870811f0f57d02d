import PeerStore.Limits

/-!
# Valid keys

A key is valid when it is not empty, holds something other than ASCII white space, and is
within the length limit. A key prefix may be anything within the limit.
-/

set_option autoImplicit false

namespace PeerStore

/-- What is wrong with a key. -/
inductive KeyError where
  | empty
  | blank
  | tooLong (actual max : Nat)
  deriving DecidableEq, Repr

namespace KeyError

/-- The short name of the broken rule. -/
def reason : KeyError → String
  | empty => "empty_key"
  | blank => "blank_key"
  | tooLong .. => "key_too_long"

/-- The wording shown to callers. -/
def message : KeyError → String
  | empty => "Key cannot be empty"
  | blank => "Key cannot be blank"
  | tooLong actual max => (LimitError.keyTooLong actual max).message

/-- A bad key is a malformed argument. -/
def status (e : KeyError) : Status := .invalidArgument e.message

end KeyError

/-- The white space that makes a key blank: space, tab, line feed, form feed and carriage
return. -/
def isBlankByte (b : UInt8) : Bool := b == 32 || b == 9 || b == 10 || b == 12 || b == 13

/-- Checks a key; an empty key is reported as empty, not as blank. -/
def checkKey (l : Limits) (perDevice : Bool) (key : Blob) : Except KeyError Unit :=
  if key.isEmpty then .error .empty
  else if key.all isBlankByte then .error .blank
  else if key.length ≤ l.keyLimit perDevice then .ok ()
  else .error (.tooLong key.length (l.keyLimit perDevice))

/-- Checks a key prefix. -/
def checkKeyPrefix (l : Limits) (perDevice : Bool) (pfx : Blob) : Except KeyError Unit :=
  if pfx.isEmpty || decide (pfx.length ≤ l.keyLimit perDevice) then .ok ()
  else .error (.tooLong pfx.length (l.keyLimit perDevice))

end PeerStore
