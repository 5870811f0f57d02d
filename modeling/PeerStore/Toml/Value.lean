import PeerStore.Double.Basic

/-!
# TOML values

The values of a settings file. A table remembers how it came to be, because that decides what may
still be added to it: `Members.insertAt` follows the rules for dotted keys, and `Members.openTable`
and `Members.openItem` those for headers.
-/

set_option autoImplicit false

namespace PeerStore.Toml

/-- How a table came to be. -/
inductive TableKind where
  /-- Written in braces; it is complete. -/
  | inline
  /-- Named by a header. -/
  | header
  /-- Passed by a longer header. -/
  | implied
  /-- Made by a dotted key. -/
  | dotted
  deriving DecidableEq, Repr

/-- A value. Members and items are in the order in which they were written, except that the
items of `tables` are the latest first. -/
inductive Value where
  | str (s : String)
  | int (n : Int)
  | float (x : Double)
  | bool (b : Bool)
  | datetime (text : String)
  | list (items : List Value)
  | table (kind : TableKind) (members : List (String × Value))
  /-- A list of tables made by headers in double brackets. -/
  | tables (items : List (List (String × Value)))
  deriving Inhabited, Repr

/-- The members of a table. -/
abbrev Members := List (String × Value)

namespace Members

/-- The value of a name. -/
def get? (ms : Members) (name : String) : Option Value := (ms.find? (·.1 == name)).map (·.2)

/-- Gives a name a value, in its old place if it has one. -/
def set (ms : Members) (name : String) (v : Value) : Members :=
  if ms.any (·.1 == name) then ms.map fun m => if m.1 == name then (name, v) else m
  else ms ++ [(name, v)]

/-- Changes the table at the end of a path, making the tables on the way. `kind` is the kind of
the tables it makes, and `last` that of the table it starts from; the change is told the kind of
the table it is given. A dotted path may not enter a table that a header has named. -/
def changeAt (kind : TableKind) (change : TableKind → Members → Option Members) :
    (last : TableKind) → List String → Members → Option Members
  | last, [], ms => change last ms
  | _, name :: path, ms =>
      match ms.get? name with
      | none =>
          (changeAt kind change kind path []).map fun inner => ms.set name (.table kind inner)
      | some (.table .inline _) => none
      | some (.table k inner) =>
          if kind = .dotted && k = .header then none
          else (changeAt kind change k path inner).map fun inner => ms.set name (.table k inner)
      | some (.tables (item :: items)) =>
          (changeAt kind change .header path item).map fun item =>
            ms.set name (.tables (item :: items))
      | some _ => none

/-- Inserts a value under a key. Only a table made by dotted keys takes more dotted keys, and it
takes nothing else. -/
def insertAt (last : TableKind) (path : List String) (name : String) (v : Value) (ms : Members) :
    Option Members :=
  changeAt .dotted (fun k inner =>
    if decide (k = .dotted) == path.isEmpty then none
    else match inner.get? name with
      | some _ => none
      | none => some (inner ++ [(name, v)])) last path ms

/-- Opens the table of a header. A table can be named once; one that longer headers have passed
is named now. -/
def openTable (path : List String) (name : String) (ms : Members) : Option Members :=
  changeAt .implied (fun _ inner =>
    match inner.get? name with
    | none => some (inner ++ [(name, .table .header [])])
    | some (.table .implied members) => some (inner.set name (.table .header members))
    | some _ => none) .header path ms

/-- Opens the next item of a list of tables. -/
def openItem (path : List String) (name : String) (ms : Members) : Option Members :=
  changeAt .implied (fun _ inner =>
    match inner.get? name with
    | none => some (inner ++ [(name, .tables [[]])])
    | some (.tables items) => some (inner.set name (.tables ([] :: items)))
    | some _ => none) .header path ms

/-- Inserts a value under a key in the table that the last header opened. -/
def insertUnder (header : List String) (path : List String) (name : String) (v : Value)
    (ms : Members) : Option Members :=
  changeAt .implied (fun k inner => insertAt k path name v inner) .header header ms

end Members

end PeerStore.Toml
