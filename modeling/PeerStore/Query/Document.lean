import PeerStore.Json.Reader
import PeerStore.Record
import PeerStore.Text.Split

/-!
# Documents and fields

A value that reads as a JSON object is a document. A field is a dotted path into it, optionally
after `$.`; a segment names a member of an object or, in digits, an item of a list.
-/

set_option autoImplicit false

namespace PeerStore

/-- The document that a value holds. -/
def Blob.document? (value : Blob) : Option Json := (Json.read? value).filter Json.isObject

namespace Query

/-- The segments of a field path. -/
def segments (field : String) : List String :=
  let path :=
    match field.toList with
    | '$' :: '.' :: path => path
    | path => path
  (split '.' path).map String.ofList

/-- One step of a path. -/
def child? (doc : Json) (segment : String) : Option Json :=
  match doc with
  | .obj members => Entries.get? segment members
  | .arr items => (Decimal.nat? segment).bind fun i => items[i]?
  | _ => none

/-- Follows a path. -/
def follow? : Json → List String → Option Json
  | doc, [] => some doc
  | doc, s :: path => (child? doc s).bind fun d => follow? d path

/-- The value of a field, if the document has it. -/
def lookup? (doc : Option Json) (field : String) : Option Json :=
  doc.bind fun d => follow? d (segments field)

/-- The value of a field, if the document has it and it is not null. -/
def present? (doc : Option Json) (field : String) : Option Json :=
  (lookup? doc field).filter fun v => !v.isNull

end Query

end PeerStore
