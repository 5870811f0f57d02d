/-!
# Keywords of the query language

The words that start a clause, the words that mark lists and directions, and the type tags of
literals. Every keyword and every mark begins with a caret.
-/

set_option autoImplicit false

namespace PeerStore.Query

/-- The word that starts a clause. -/
inductive Keyword where
  | equal
  | notEqual
  | greater
  | less
  | greaterOrEqual
  | lessOrEqual
  | isNull
  | isNotNull
  | oneOf
  | noneOf
  | like
  | notLike
  | and
  | or
  | ascending
  | descending
  | writeTime
  | limit
  | beginGroup
  | endGroup
  | keyPrefix
  | inKeys
  | suggestIndex
  | deviceId
  deriving DecidableEq, Repr

namespace Keyword

/-- All keywords. -/
def all : List Keyword :=
  [equal, notEqual, greater, less, greaterOrEqual, lessOrEqual, isNull, isNotNull, oneOf, noneOf,
    like, notLike, and, or, ascending, descending, writeTime, limit, beginGroup, endGroup,
    keyPrefix, inKeys, suggestIndex, deviceId]

/-- How a keyword is written. -/
def text : Keyword → String
  | equal => "^EQUAL"
  | notEqual => "^NOT_EQUAL"
  | greater => "^GREATER"
  | less => "^LESS"
  | greaterOrEqual => "^GREATER_EQUAL"
  | lessOrEqual => "^LESS_EQUAL"
  | isNull => "^IS_NULL"
  | isNotNull => "^IS_NOT_NULL"
  | oneOf => "^IN"
  | noneOf => "^NOT_IN"
  | like => "^LIKE"
  | notLike => "^NOT_LIKE"
  | and => "^AND"
  | or => "^OR"
  | ascending => "^ASC"
  | descending => "^DESC"
  | writeTime => "^OrderByWriteTime"
  | limit => "^LIMIT"
  | beginGroup => "^BEGIN_GROUP"
  | endGroup => "^END_GROUP"
  | keyPrefix => "^KEY_PREFIX"
  | inKeys => "^IN_KEYS"
  | suggestIndex => "^SUGGEST_INDEX"
  | deviceId => "^DEVICE_ID"

/-- The keyword that a token writes. -/
def ofText? (token : String) : Option Keyword := all.find? (·.text = token)

end Keyword

/-! ## Marks -/

/-- The mark in front of a list. -/
def listStart : String := "^START"

/-- The mark behind a list. -/
def listEnd : String := "^END"

/-- The mark of an ascending write-time order. -/
def ascendingMark : String := "^IS_ASC"

/-- The mark of a descending write-time order. -/
def descendingMark : String := "^IS_DESC"

/-! ## Types -/

/-- The type of a literal. -/
inductive FieldType where
  /-- Integers of 32 bits. -/
  | integer
  /-- Integers of 64 bits. -/
  | long
  | double
  | bool
  | string
  deriving DecidableEq, Repr

namespace FieldType

/-- All types. -/
def all : List FieldType := [integer, long, double, bool, string]

/-- How a type is written. -/
def tag : FieldType → String
  | integer => "INTEGER"
  | long => "LONG"
  | double => "DOUBLE"
  | bool => "BOOL"
  | string => "STRING"

/-- The type that a token writes. -/
def ofTag? (token : String) : Option FieldType := all.find? (·.tag = token)

end FieldType

end PeerStore.Query
