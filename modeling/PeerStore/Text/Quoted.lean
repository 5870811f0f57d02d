import PeerStore.Blob
import PeerStore.Text.Printable
import PeerStore.Text.Utf8

/-!
# Quoted text

`quote` writes a text between double quotes so that every character of it can be told: quotes,
backslashes and characters that do not show are escaped. `Blob.display` writes a byte string as
quoted text if it is text, and as a list of octets if it is not.
-/

set_option autoImplicit false

namespace PeerStore

/-- How a character is written between double quotes. -/
def quoteChar (c : Char) : List Char :=
  match c with
  | '"' => ['\\', '"']
  | '\\' => ['\\', '\\']
  | '\t' => ['\\', 't']
  | '\r' => ['\\', 'r']
  | '\n' => ['\\', 'n']
  | '\x00' => ['\\', '0']
  | c =>
      if isPrintable c then [c]
      else "\\u\x7b".toList ++ Nat.toDigits 16 c.toNat ++ ['\x7d']

/-- A text between double quotes. -/
def quote (cs : List Char) : String := String.ofList ('"' :: cs.flatMap quoteChar ++ ['"'])

/-- A byte string as it is shown to a reader. -/
def Blob.display (b : Blob) : String :=
  match Utf8.decode? b with
  | some cs => quote cs
  | none => "Blob([" ++ ", ".intercalate (b.map fun n => toString n.toNat) ++ "])"

end PeerStore
