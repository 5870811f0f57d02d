import PeerStore.Double.Text
import PeerStore.Query.Keyword
import PeerStore.Table
import PeerStore.Blob

/-!
# Clauses

A query is a list of clauses. Those that make up the filter (`FilterPart`: predicates,
connectors and groups) are kept apart from the modifiers, which order, page and select by key.
-/

set_option autoImplicit false

namespace PeerStore.Query

/-! ## Literals -/

/-- A typed literal. -/
inductive Literal where
  | int (n : Int32)
  | long (n : Int64)
  | double (x : Double)
  | bool (b : Bool)
  | str (s : String)
  deriving DecidableEq, Repr

namespace Literal

/-- The type of a literal. -/
def type : Literal → FieldType
  | int _ => .integer
  | long _ => .long
  | double _ => .double
  | bool _ => .bool
  | str _ => .string

/-- The text of a literal, as it is shown. -/
def text : Literal → String
  | int n => toString n.toInt
  | long n => toString n.toInt
  | double x => x.text
  | bool true => "true"
  | bool false => "false"
  | str s => s

/-- The literal as a double, if it is a number. -/
def double? : Literal → Option Double
  | int n => some (Double.ofInt n.toInt)
  | long n => some (Double.ofInt n.toInt)
  | double x => some x
  | bool _ => none
  | str _ => none

end Literal

/-! ## Predicates -/

/-- How a field is compared with a literal. -/
inductive CompareOp where
  | equal
  | notEqual
  | greater
  | less
  | greaterOrEqual
  | lessOrEqual
  deriving DecidableEq, Repr

namespace CompareOp

/-- Whether the comparison asks for an order and not only for equality. -/
def isOrdering : CompareOp → Bool
  | equal | notEqual => false
  | greater | less | greaterOrEqual | lessOrEqual => true

/-- The keyword of a comparison. -/
def keyword : CompareOp → Keyword
  | equal => .equal
  | notEqual => .notEqual
  | greater => .greater
  | less => .less
  | greaterOrEqual => .greaterOrEqual
  | lessOrEqual => .lessOrEqual

end CompareOp

/-- A test on one field of a document. -/
inductive Predicate where
  | compare (op : CompareOp) (field : String) (value : Literal)
  | oneOf (field : String) (values : List Literal)
  | noneOf (field : String) (values : List Literal)
  | like (field pattern : String)
  | notLike (field pattern : String)
  | isNull (field : String)
  | isNotNull (field : String)
  deriving DecidableEq, Repr

/-- A part of the filter of a query. -/
inductive FilterPart where
  | test (p : Predicate)
  | and
  | or
  | beginGroup
  | endGroup
  deriving DecidableEq, Repr

/-! ## Clauses and queries -/

/-- A clause of a query. -/
inductive Clause where
  /-- A part of the filter. -/
  | part (p : FilterPart)
  /-- Orders by a field. -/
  | orderBy (field : String) (ascending : Bool)
  /-- Orders by the time of the last write. -/
  | orderByWriteTime (ascending : Bool)
  /-- Skips `offset` results and keeps at most `number`. -/
  | limit (number offset : Nat)
  /-- Restricts to stored keys with a prefix. -/
  | keyPrefix (pfx : Blob)
  /-- Restricts to a set of stored keys. -/
  | inKeys (keys : KeySet Blob)
  /-- The device that the query is scoped to. -/
  | deviceId (device : String)
  /-- A hint for the persistence engine. -/
  | suggestIndex (index : String)
  deriving DecidableEq

end Query

/-- A query: its clauses, in the order in which they were written. -/
abbrev Query := List Query.Clause

namespace Query

/-- The query that selects everything. -/
def selectAll : Query := []

/-- The device that a query is scoped to: that of its first device clause. -/
def device? (q : Query) : Option String :=
  q.findSome? fun
    | .deviceId device => some device
    | _ => none

end PeerStore.Query
