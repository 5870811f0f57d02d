import PeerStore.Limits
import PeerStore.Query.Clause
import PeerStore.Query.Token

/-!
# Building query text

A `Builder` collects the tokens of a query, call by call. A call with a bad argument adds
nothing; the first such call is remembered, and the builder then has no text. A device scope is
written first, wherever it was given.
-/

set_option autoImplicit false

namespace PeerStore.Query

/-- The literals of a value list, all of one type. -/
inductive Literals where
  | ints (ns : List Int32)
  | longs (ns : List Int64)
  | doubles (xs : List Double)
  | bools (bs : List Bool)
  | strs (ss : List String)
  deriving DecidableEq, Repr

namespace Literals

/-- The common type. -/
def type : Literals → FieldType
  | ints _ => .integer
  | longs _ => .long
  | doubles _ => .double
  | bools _ => .bool
  | strs _ => .string

/-- The literals one by one. -/
def toList : Literals → List Literal
  | ints ns => ns.map .int
  | longs ns => ns.map .long
  | doubles xs => xs.map .double
  | bools bs => bs.map .bool
  | strs ss => ss.map .str

end Literals

/-- How a literal is written in query text. -/
def Literal.token : Literal → String
  | .str s => escape s
  | v => v.text

/-- Why a call was rejected. -/
inductive Rejection where
  | badArgument
  | orderedBool
  | boolList
  | emptyKeyList
  | repeatedKeyList
  deriving DecidableEq, Repr

/-- The wording of a rejection. -/
def Rejection.message : Rejection → String
  | badArgument => "argument is empty or contains '^'"
  | orderedBool => "boolean values cannot be ordered"
  | boolList => "boolean value lists are not supported"
  | emptyKeyList => "key list is empty"
  | repeatedKeyList => "key list given more than once"

/-- The longest text that a builder renders, in bytes. -/
def maxTextBytes : Nat := 5120

/-- Why a builder has no text. -/
inductive BuildError where
  | rejected (keyword : Keyword) (why : Rejection)
  | tooLong (actual : Nat)
  deriving DecidableEq, Repr

namespace BuildError

/-- The wording shown to callers. -/
def message : BuildError → String
  | rejected keyword why => keyword.text ++ ": " ++ why.message
  | tooLong actual =>
      "query too long: " ++ toString actual ++ " bytes exceeds maximum " ++ toString maxTextBytes

/-- A query without text is a malformed argument. -/
def status (e : BuildError) : Status := .invalidArgument e.message

end BuildError

/-- A query text in the making. -/
structure Builder where
  /-- The tokens so far, without the device scope. -/
  tokens : List String := []
  /-- The network id of the device scope. -/
  network : Option String := none
  /-- Whether a key list has been added. -/
  hasKeys : Bool := false
  /-- The first rejected call. -/
  rejected : Option (Keyword × Rejection) := none
  deriving DecidableEq, Repr

namespace Builder

/-- Whether a text may stand as a field or another name: it is not empty and has no caret. -/
def isName (s : String) : Bool := !s.toList.isEmpty && !s.toList.contains '^'

/-- Adds tokens. -/
def append (b : Builder) (tokens : List String) : Builder :=
  { b with tokens := b.tokens ++ tokens }

/-- Remembers a rejected call, unless one was rejected before. -/
def reject (b : Builder) (keyword : Keyword) (why : Rejection) : Builder :=
  { b with rejected := b.rejected.or (some (keyword, why)) }

/-! ## Calls -/

/-- Adds a clause that has one name. -/
def named (b : Builder) (keyword : Keyword) (name : String) : Builder :=
  if isName name then b.append [keyword.text, escape name] else b.reject keyword .badArgument

/-- Adds a comparison. -/
def compare (b : Builder) (op : CompareOp) (field : String) (value : Literal) : Builder :=
  if !isName field then b.reject op.keyword .badArgument
  else if op.isOrdering && value.type == .bool then b.reject op.keyword .orderedBool
  else b.append [op.keyword.text, value.type.tag, escape field, value.token]

/-- Adds a membership test. -/
def list (b : Builder) (keyword : Keyword) (field : String) (values : Literals) : Builder :=
  if !isName field then b.reject keyword .badArgument
  else if values.type == .bool then b.reject keyword .boolList
  else
    b.append ([keyword.text, values.type.tag, escape field, listStart] ++
      values.toList.map Literal.token ++ [listEnd])

/-- Adds a pattern test. -/
def pattern (b : Builder) (keyword : Keyword) (field text : String) : Builder :=
  if isName field then b.append [keyword.text, escape field, escape text]
  else b.reject keyword .badArgument

/-- A call on a builder. -/
inductive Call where
  | compare (op : CompareOp) (field : String) (value : Literal)
  | oneOf (field : String) (values : Literals)
  | noneOf (field : String) (values : Literals)
  | like (field pattern : String)
  | notLike (field pattern : String)
  | isNull (field : String)
  | isNotNull (field : String)
  | and
  | or
  | beginGroup
  | endGroup
  | orderBy (field : String) (ascending : Bool)
  | orderByWriteTime (ascending : Bool)
  | limit (number offset : Nat)
  | keyPrefix (pfx : String)
  | deviceId (network : String)
  | suggestIndex (index : String)
  | inKeys (keys : List String)
  /-- Forgets all calls before. -/
  | reset
  deriving DecidableEq, Repr

/-- Adds a key list, once. -/
def inKeys (b : Builder) (keys : List String) : Builder :=
  if keys.isEmpty then b.reject .inKeys .emptyKeyList
  else if b.hasKeys then b.reject .inKeys .repeatedKeyList
  else if keys.all isName then
    { b.append ([Keyword.inKeys.text, listStart] ++ keys.map escape ++ [listEnd]) with
      hasKeys := true }
  else b.reject .inKeys .badArgument

/-- What a call does. -/
def call (b : Builder) : Call → Builder
  | .compare op field value => b.compare op field value
  | .oneOf field values => b.list .oneOf field values
  | .noneOf field values => b.list .noneOf field values
  | .like field text => b.pattern .like field text
  | .notLike field text => b.pattern .notLike field text
  | .isNull field => b.named .isNull field
  | .isNotNull field => b.named .isNotNull field
  | .and => b.append [Keyword.and.text]
  | .or => b.append [Keyword.or.text]
  | .beginGroup => b.append [Keyword.beginGroup.text]
  | .endGroup => b.append [Keyword.endGroup.text]
  | .orderBy field ascending => b.named (if ascending then .ascending else .descending) field
  | .orderByWriteTime ascending =>
      b.append [Keyword.writeTime.text, if ascending then ascendingMark else descendingMark]
  | .limit number offset => b.append [Keyword.limit.text, toString number, toString offset]
  | .keyPrefix pfx => b.named .keyPrefix pfx
  | .deviceId network =>
      if isName network then { b with network := some network }
      else b.reject .deviceId .badArgument
  | .suggestIndex index => b.named .suggestIndex index
  | .inKeys keys => b.inKeys keys
  | .reset => {}

/-! ## Text -/

/-- All tokens, the device scope first. -/
def allTokens (b : Builder) : List String :=
  (match b.network with
    | some network => [Keyword.deviceId.text, escape network]
    | none => []) ++ b.tokens

/-- Tokens as text, with a space in front of each. -/
def render (tokens : List String) : String :=
  String.ofList (tokens.flatMap fun t => ' ' :: t.toList)

/-- The text of the query. -/
def text? (b : Builder) : Except BuildError String :=
  match b.rejected with
  | some (keyword, why) => .error (.rejected keyword why)
  | none =>
      let out := render b.allTokens
      if maxTextBytes < out.utf8ByteSize then .error (.tooLong out.utf8ByteSize) else .ok out

end Builder

end PeerStore.Query
