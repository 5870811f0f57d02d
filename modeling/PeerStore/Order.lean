/-!
# Key orders

`KeyOrder κ` is a strict linear order on a key type, given by a Boolean test `before`. Sorted
tables are built on it. Numbers, strings (by code point) and pairs (lexicographically) have
one; byte strings get theirs in `PeerStore.Blob`.
-/

set_option autoImplicit false

namespace PeerStore

/-- A strict linear order: irreflexive, transitive, and two keys that are not ordered either
way are equal. -/
class KeyOrder (κ : Type) where
  before : κ → κ → Bool
  irrefl : ∀ a, before a a = false
  trans : ∀ {a b c}, before a b = true → before b c = true → before a c = true
  connected : ∀ {a b}, before a b = false → before b a = false → a = b

namespace KeyOrder

variable {κ : Type} [KeyOrder κ]

/-- No two keys are each before the other. -/
theorem asymm {a b : κ} (h : before a b = true) : before b a = false := by
  cases hba : before b a with
  | false => rfl
  | true =>
      have := trans h hba
      rw [irrefl] at this
      exact this.symm

/-- A key is never before an equal one. -/
theorem ne_of_before {a b : κ} (h : before a b = true) : a ≠ b := by
  rintro rfl
  rw [irrefl] at h
  exact Bool.noConfusion h

end KeyOrder

/-! ## Instances -/

instance : KeyOrder Nat where
  before a b := decide (a < b)
  irrefl a := by simp
  trans h₁ h₂ := by simp at *; omega
  connected h₁ h₂ := by simp at *; omega

/-- Strings are ordered by code point, which is also the order of their encoded bytes. -/
instance : KeyOrder String where
  before a b := decide (a < b)
  irrefl a := decide_eq_false (String.lt_irrefl a)
  trans h₁ h₂ := decide_eq_true (String.lt_trans (of_decide_eq_true h₁) (of_decide_eq_true h₂))
  connected h₁ h₂ :=
    String.le_antisymm (String.not_lt.mp (of_decide_eq_false h₂))
      (String.not_lt.mp (of_decide_eq_false h₁))

/-- Pairs are compared by their first parts, and by their second parts where those agree. -/
instance {α β : Type} [KeyOrder α] [KeyOrder β] : KeyOrder (α × β) where
  before a b :=
    KeyOrder.before a.1 b.1 || (!KeyOrder.before b.1 a.1 && KeyOrder.before a.2 b.2)
  irrefl a := by simp [KeyOrder.irrefl]
  trans {a b c} h₁ h₂ := by
    simp only [Bool.or_eq_true, Bool.and_eq_true, Bool.not_eq_true'] at *
    rcases h₁ with h₁ | ⟨h₁, h₁'⟩ <;> rcases h₂ with h₂ | ⟨h₂, h₂'⟩
    · exact Or.inl (KeyOrder.trans h₁ h₂)
    · cases h : KeyOrder.before b.1 c.1 with
      | true => exact Or.inl (KeyOrder.trans h₁ h)
      | false => exact Or.inl (KeyOrder.connected h h₂ ▸ h₁)
    · cases h : KeyOrder.before a.1 b.1 with
      | true => exact Or.inl (KeyOrder.trans h h₂)
      | false => exact Or.inl (KeyOrder.connected h h₁ ▸ h₂)
    · refine Or.inr ⟨?_, KeyOrder.trans h₁' h₂'⟩
      cases h : KeyOrder.before c.1 a.1 with
      | false => rfl
      | true =>
          cases hab : KeyOrder.before a.1 b.1 with
          | true => rw [KeyOrder.trans h hab] at h₂; exact Bool.noConfusion h₂
          | false =>
              rw [KeyOrder.connected hab h₁] at h
              rw [h] at h₂
              exact Bool.noConfusion h₂
  connected {a b} h₁ h₂ := by
    simp only [Bool.or_eq_false_iff, Bool.and_eq_false_iff, Bool.not_eq_false'] at *
    have h : a.1 = b.1 := KeyOrder.connected h₁.1 h₂.1
    have h' : a.2 = b.2 := by
      refine KeyOrder.connected ?_ ?_
      · rcases h₁.2 with hb | hb
        · rw [h₂.1] at hb; exact Bool.noConfusion hb
        · exact hb
      · rcases h₂.2 with hb | hb
        · rw [h₁.1] at hb; exact Bool.noConfusion hb
        · exact hb
    exact Prod.ext h h'

end PeerStore
