import PeerStore.Double.Basic
import PeerStore.Table

/-!
# JSON values

The values that documents are made of. The members of an object are held in ascending order of
their names, each name once.
-/

set_option autoImplicit false

namespace PeerStore

/-- A JSON value. Numbers are doubles. -/
inductive Json where
  | null
  | bool (b : Bool)
  | num (x : Double)
  | str (s : String)
  | arr (items : List Json)
  | obj (members : List (String × Json))
  deriving Inhabited, Repr

namespace Json

def isNull : Json → Bool
  | null => true
  | _ => false

def isObject : Json → Bool
  | obj _ => true
  | _ => false

def bool? : Json → Option Bool
  | bool b => some b
  | _ => none

def num? : Json → Option Double
  | num x => some x
  | _ => none

def str? : Json → Option String
  | str s => some s
  | _ => none

end Json

end PeerStore
