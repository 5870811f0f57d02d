import PeerStore.Order

/-!
# Ascending entry lists

Lists of entries in strictly ascending key order, with a look-up, an insertion and an erasure that
each pass the list once. Both operations keep the order; `get?_insert` and `get?_erase` say what
they do to the look-up, and `eq_of_get?` that two such lists with equal look-ups are equal.
-/

set_option autoImplicit false

namespace PeerStore

open KeyOrder (before)

variable {κ α : Type} [KeyOrder κ]

namespace Entries

/-! ## Operations on the entry list -/

/-- Every key is before all later ones. -/
def Ascending (es : List (κ × α)) : Prop := es.Pairwise fun a b => before a.1 b.1 = true

/-- The value of `k`. -/
def get? (k : κ) : List (κ × α) → Option α
  | [] => none
  | (k', v) :: es => if before k' k then get? k es else if before k k' then none else some v

/-- Writes `v` under `k`, over any value there. -/
def insert (k : κ) (v : α) : List (κ × α) → List (κ × α)
  | [] => [(k, v)]
  | (k', v') :: es =>
      if before k' k then (k', v') :: insert k v es
      else if before k k' then (k, v) :: (k', v') :: es
      else (k, v) :: es

/-- Removes the entry of `k`, if there is one. -/
def erase (k : κ) : List (κ × α) → List (κ × α)
  | [] => []
  | (k', v') :: es =>
      if before k' k then (k', v') :: erase k es
      else if before k k' then (k', v') :: es
      else es

/-! ## They keep the order -/

theorem mem_insert {k : κ} {v : α} {e : κ × α} {es : List (κ × α)} (h : e ∈ insert k v es) :
    e = (k, v) ∨ e ∈ es := by
  induction es with
  | nil => simpa [insert] using h
  | cons e' es ih =>
      obtain ⟨k', v'⟩ := e'
      simp only [insert] at h
      split at h
      · rcases List.mem_cons.mp h with rfl | h
        · exact Or.inr (List.mem_cons_self ..)
        · exact (ih h).imp_right (List.mem_cons_of_mem _)
      · split at h
        · rcases List.mem_cons.mp h with rfl | h
          · exact Or.inl rfl
          · exact Or.inr h
        · rcases List.mem_cons.mp h with rfl | h
          · exact Or.inl rfl
          · exact Or.inr (List.mem_cons_of_mem _ h)

theorem mem_of_mem_erase {k : κ} {e : κ × α} {es : List (κ × α)} (h : e ∈ erase k es) :
    e ∈ es := by
  induction es with
  | nil => simp [erase] at h
  | cons e' es ih =>
      obtain ⟨k', v'⟩ := e'
      simp only [erase] at h
      split at h
      · rcases List.mem_cons.mp h with rfl | h
        · exact List.mem_cons_self ..
        · exact List.mem_cons_of_mem _ (ih h)
      · split at h
        · exact h
        · exact List.mem_cons_of_mem _ h

theorem ascending_insert (k : κ) (v : α) {es : List (κ × α)} (h : Ascending es) :
    Ascending (insert k v es) := by
  induction es with
  | nil => exact List.pairwise_singleton ..
  | cons e' es ih =>
      obtain ⟨k', v'⟩ := e'
      obtain ⟨h₁, h₂⟩ := List.pairwise_cons.mp h
      simp only [insert]
      split
      · rename_i hk
        refine List.pairwise_cons.mpr ⟨fun e he => ?_, ih h₂⟩
        rcases mem_insert he with rfl | he
        · exact hk
        · exact h₁ e he
      · split
        · rename_i hk
          refine List.pairwise_cons.mpr ⟨fun e he => ?_, h⟩
          rcases List.mem_cons.mp he with rfl | he
          · exact hk
          · exact KeyOrder.trans hk (h₁ e he)
        · rename_i hk hk'
          have : k = k' := KeyOrder.connected (by simpa using hk') (by simpa using hk)
          exact List.pairwise_cons.mpr ⟨fun e he => this ▸ h₁ e he, h₂⟩

theorem ascending_erase (k : κ) {es : List (κ × α)} (h : Ascending es) :
    Ascending (erase k es) := by
  induction es with
  | nil => exact List.Pairwise.nil
  | cons e' es ih =>
      obtain ⟨k', v'⟩ := e'
      obtain ⟨h₁, h₂⟩ := List.pairwise_cons.mp h
      simp only [erase]
      split
      · exact List.pairwise_cons.mpr ⟨fun e he => h₁ e (mem_of_mem_erase he), ih h₂⟩
      · split
        · exact h
        · exact h₂

/-! ## What they do to the look-up -/

/-- Nothing is found under a key that all entries come after. -/
theorem get?_eq_none_of_before {k : κ} {es : List (κ × α)}
    (h : ∀ e ∈ es, before k e.1 = true) : get? k es = none := by
  cases es with
  | nil => rfl
  | cons e es =>
      have hk := h e (List.mem_cons_self ..)
      simp [get?, KeyOrder.asymm hk, hk]

theorem get?_insert (k k' : κ) (v : α) {es : List (κ × α)} (h : Ascending es) :
    (k = k' → get? k' (insert k v es) = some v) ∧
      (k ≠ k' → get? k' (insert k v es) = get? k' es) := by
  induction es with
  | nil =>
      refine ⟨?_, fun hne => ?_⟩
      · rintro rfl
        simp [insert, get?, KeyOrder.irrefl]
      · simp only [insert, get?]
        split
        · rfl
        · split
          · rfl
          · rename_i h₁ h₂
            exact absurd (KeyOrder.connected (by simpa using h₁) (by simpa using h₂)) hne
  | cons e es ih =>
      obtain ⟨j, w⟩ := e
      obtain ⟨h₁, h₂⟩ := List.pairwise_cons.mp h
      simp only [insert]
      split
      · rename_i hj
        refine ⟨?_, fun hne => ?_⟩
        · rintro rfl
          simp only [get?, if_pos hj]
          exact (ih h₂).1 rfl
        · simp only [get?]
          rw [(ih h₂).2 hne]
      · split
        · rename_i hj hk
          refine ⟨?_, fun hne => ?_⟩
          · rintro rfl
            simp [get?, KeyOrder.irrefl]
          · rw [get?]
            split
            · rfl
            · split
              · rename_i hk'
                refine (get?_eq_none_of_before fun e he => ?_).symm
                rcases List.mem_cons.mp he with rfl | he
                · exact KeyOrder.trans hk' hk
                · exact KeyOrder.trans hk' (KeyOrder.trans hk (h₁ e he))
              · rename_i h₃ h₄
                exact absurd (KeyOrder.connected (by simpa using h₃) (by simpa using h₄)) hne
        · rename_i hj hk
          have hjk : k = j := KeyOrder.connected (by simpa using hk) (by simpa using hj)
          subst hjk
          refine ⟨?_, fun hne => ?_⟩
          · rintro rfl
            simp [get?, KeyOrder.irrefl]
          · simp only [get?]
            split
            · rfl
            · split
              · rfl
              · rename_i h₃ h₄
                exact absurd (KeyOrder.connected (by simpa using h₃) (by simpa using h₄)) hne

theorem get?_erase (k k' : κ) {es : List (κ × α)} (h : Ascending es) :
    (k = k' → get? k' (erase k es) = none) ∧
      (k ≠ k' → get? k' (erase k es) = get? k' es) := by
  induction es with
  | nil => exact ⟨fun _ => rfl, fun _ => rfl⟩
  | cons e es ih =>
      obtain ⟨j, w⟩ := e
      obtain ⟨h₁, h₂⟩ := List.pairwise_cons.mp h
      simp only [erase]
      split
      · rename_i hj
        refine ⟨?_, fun hne => ?_⟩
        · rintro rfl
          simp only [get?, if_pos hj]
          exact (ih h₂).1 rfl
        · simp only [get?]
          rw [(ih h₂).2 hne]
      · split
        · rename_i hj hk
          refine ⟨?_, fun _ => rfl⟩
          rintro rfl
          simp [get?, hj, hk]
        · rename_i hj hk
          have hjk : k = j := KeyOrder.connected (by simpa using hk) (by simpa using hj)
          subst hjk
          refine ⟨?_, fun hne => ?_⟩
          · rintro rfl
            exact get?_eq_none_of_before h₁
          · simp only [get?]
            split
            · rfl
            · split
              · rename_i hk'
                exact get?_eq_none_of_before fun e he => KeyOrder.trans hk' (h₁ e he)
              · rename_i h₃ h₄
                exact absurd (KeyOrder.connected (by simpa using h₃) (by simpa using h₄)) hne

theorem get?_eq_some_of_mem {k : κ} {v : α} {es : List (κ × α)} (h : Ascending es)
    (hm : (k, v) ∈ es) : get? k es = some v := by
  induction es with
  | nil => simp at hm
  | cons e es ih =>
      obtain ⟨j, w⟩ := e
      obtain ⟨h₁, h₂⟩ := List.pairwise_cons.mp h
      rcases List.mem_cons.mp hm with he | hm
      · cases he
        simp [get?, KeyOrder.irrefl]
      · simp only [get?, if_pos (h₁ _ hm)]
        exact ih h₂ hm

theorem mem_of_get?_eq_some {k : κ} {v : α} {es : List (κ × α)} (h : get? k es = some v) :
    (k, v) ∈ es := by
  induction es with
  | nil => simp [get?] at h
  | cons e es ih =>
      obtain ⟨j, w⟩ := e
      simp only [get?] at h
      split at h
      · exact List.mem_cons_of_mem _ (ih h)
      · split at h
        · simp at h
        · rename_i h₁ h₂
          have : j = k := KeyOrder.connected (by simpa using h₁) (by simpa using h₂)
          cases h
          exact this ▸ List.mem_cons_self ..

/-- Two ascending lists with the same look-up are the same list. -/
theorem eq_of_get? {es fs : List (κ × α)} (he : Ascending es) (hf : Ascending fs)
    (h : ∀ k, get? k es = get? k fs) : es = fs := by
  induction es generalizing fs with
  | nil =>
      cases fs with
      | nil => rfl
      | cons f fs =>
          have := h f.1
          rw [get?_eq_some_of_mem hf (List.mem_cons_self ..)] at this
          simp [get?] at this
  | cons e es ih =>
      cases fs with
      | nil =>
          have := h e.1
          rw [get?_eq_some_of_mem he (List.mem_cons_self ..)] at this
          simp [get?] at this
      | cons f fs =>
          obtain ⟨he₁, he₂⟩ := List.pairwise_cons.mp he
          obtain ⟨hf₁, hf₂⟩ := List.pairwise_cons.mp hf
          have hef : e = f := by
            have h₁ := mem_of_get?_eq_some
              ((h e.1).symm.trans (get?_eq_some_of_mem he (List.mem_cons_self ..)))
            have h₂ := mem_of_get?_eq_some
              ((h f.1).trans (get?_eq_some_of_mem hf (List.mem_cons_self ..)))
            rcases List.mem_cons.mp h₁ with h₁ | h₁
            · exact h₁
            · rcases List.mem_cons.mp h₂ with h₂ | h₂
              · exact h₂.symm
              · have := KeyOrder.asymm (hf₁ _ h₁)
                rw [he₁ _ h₂] at this
                exact absurd this (by simp)
          subst hef
          refine congrArg (e :: ·) (ih he₂ hf₂ fun k => ?_)
          cases hk : before e.1 k with
          | true =>
              have := h k
              simpa only [get?, hk, if_true] using this
          | false =>
              have hall : ∀ {gs : List (κ × α)}, (∀ g ∈ gs, before e.1 g.1 = true) →
                  get? k gs = none := by
                intro gs hgs
                refine get?_eq_none_of_before fun g hg => ?_
                cases hkg : before k g.1 with
                | true => rfl
                | false =>
                    cases hgk : before g.1 k with
                    | true => rw [KeyOrder.trans (hgs g hg) hgk] at hk; exact hk.symm
                    | false =>
                        have := KeyOrder.connected hgk hkg
                        rw [← this, hgs g hg] at hk
                        exact hk.symm
              rw [hall he₁, hall hf₁]

end Entries

end PeerStore
