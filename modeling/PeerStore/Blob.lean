import PeerStore.Order

/-!
# Byte strings

Keys and values are byte strings of any content. They are ordered bytewise, a byte string
coming after each of its proper prefixes.
-/

set_option autoImplicit false

namespace PeerStore

/-- A byte string: a key, a value or a key prefix. -/
abbrev Blob := List UInt8

namespace Blob

/-- The UTF-8 bytes of a text. -/
def ofString (s : String) : Blob := s.toList.flatMap String.utf8EncodeChar

/-- Bytewise order; a proper prefix comes first. -/
def before : Blob → Blob → Bool
  | _, [] => false
  | [], _ :: _ => true
  | a :: as, b :: bs => if a < b then true else if b < a then false else before as bs

/-- Whether the byte string begins with `pfx`. -/
def startsWith (b pfx : Blob) : Bool := pfx.isPrefixOf b

/-- The bytes after `pfx`, if the byte string begins with it. -/
def dropPrefix? : Blob → Blob → Option Blob
  | b, [] => some b
  | [], _ :: _ => none
  | a :: as, p :: ps => if a = p then dropPrefix? as ps else none

/-! ## Prefixes -/

/-- What `dropPrefix?` gives is what stands behind the prefix. -/
theorem dropPrefix?_eq_some_iff {b pfx rest : Blob} :
    dropPrefix? b pfx = some rest ↔ b = pfx ++ rest := by
  induction pfx generalizing b with
  | nil => cases b <;> simp [dropPrefix?]
  | cons p ps ih =>
      cases b with
      | nil => simp [dropPrefix?]
      | cons a as => by_cases h : a = p <;> simp [dropPrefix?, h, ih]

theorem dropPrefix?_append (pfx rest : Blob) : dropPrefix? (pfx ++ rest) pfx = some rest :=
  dropPrefix?_eq_some_iff.mpr rfl

/-! ## The order is strict and linear -/

theorem before_irrefl (a : Blob) : before a a = false := by
  induction a with
  | nil => rfl
  | cons a as ih => simp [before, ih]

theorem before_trans {a b c : Blob} (h₁ : before a b = true) (h₂ : before b c = true) :
    before a c = true := by
  induction a generalizing b c with
  | nil =>
      cases c with
      | nil => cases b <;> simp [before] at h₂
      | cons => rfl
  | cons a as ih =>
      cases b with
      | nil => simp [before] at h₁
      | cons b bs =>
          cases c with
          | nil => simp [before] at h₂
          | cons c cs =>
              simp only [before, UInt8.lt_iff_toNat_lt] at *
              split at h₁
              · split at h₂
                · rw [if_pos (by omega)]
                · split at h₂
                  · simp at h₂
                  · rw [if_pos (by omega)]
              · split at h₁
                · simp at h₁
                · split at h₂
                  · rw [if_pos (by omega)]
                  · split at h₂
                    · simp at h₂
                    · rw [if_neg (by omega), if_neg (by omega)]
                      exact ih h₁ h₂

theorem before_connected {a b : Blob} (h₁ : before a b = false) (h₂ : before b a = false) :
    a = b := by
  induction a generalizing b with
  | nil =>
      cases b with
      | nil => rfl
      | cons => simp [before] at h₁
  | cons a as ih =>
      cases b with
      | nil => simp [before] at h₂
      | cons b bs =>
          simp only [before] at h₁ h₂
          split at h₁
          · simp at h₁
          · rename_i hab
            rw [if_neg hab] at h₂
            split at h₁
            · rename_i hba
              rw [if_pos hba] at h₂
              simp at h₂
            · rename_i hba
              rw [if_neg hba] at h₂
              have hab' : a = b := by
                rw [UInt8.lt_iff_toNat_lt] at hab hba
                exact UInt8.toNat_inj.mp (by omega)
              rw [hab', ih h₁ h₂]

end Blob

instance : KeyOrder Blob where
  before := Blob.before
  irrefl := Blob.before_irrefl
  trans := Blob.before_trans
  connected := Blob.before_connected

end PeerStore
