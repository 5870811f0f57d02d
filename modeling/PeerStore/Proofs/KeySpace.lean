import PeerStore.KeySpace

/-!
# Keys of several devices

A store that keeps devices apart puts the device id in front of a user key, with nothing between
the two. Which device a stored key belongs to is therefore settled only among devices none of whose
ids is a prefix of another (`PrefixFree`): then the stored keys of different devices differ, and
the user key can be read off (**`PrefixFree.append_prefix_iff`**). UTF-8 keeps ids apart that differ
as texts (`Blob.toList_prefix_of_ofString`).
-/

set_option autoImplicit false

namespace PeerStore

/-! ## Prefixes of texts and of their bytes -/

namespace Blob

/-- Characters whose bytes stand in front of the bytes of others stand in front of them. -/
theorem prefix_of_flatMap_utf8EncodeChar {cs ds : List Char} {rest : Blob}
    (h : cs.flatMap String.utf8EncodeChar ++ rest = ds.flatMap String.utf8EncodeChar) :
    cs <+: ds := by
  induction cs generalizing ds with
  | nil => exact List.nil_prefix
  | cons c cs ih =>
      cases ds with
      | nil =>
          rw [List.flatMap_cons, List.flatMap_nil, List.append_eq_nil_iff,
            List.append_eq_nil_iff] at h
          exact absurd h.1.1 String.utf8EncodeChar_ne_nil
      | cons d ds =>
          rw [List.flatMap_cons, List.flatMap_cons, List.append_assoc] at h
          -- the first character can be decoded from either side
          have hdecode (e : Char) (bs : Blob) :
              (String.utf8EncodeChar e ++ bs).toByteArray.utf8DecodeChar? 0 = some e := by
            rw [List.toByteArray_append]
            exact ByteArray.utf8DecodeChar?_utf8EncodeChar_append
          have hfirst : c = d := by
            have hc := hdecode c (cs.flatMap String.utf8EncodeChar ++ rest)
            rw [h, hdecode d] at hc
            exact (Option.some.inj hc).symm
          rw [hfirst] at h ⊢
          exact List.cons_prefix_cons.mpr ⟨rfl, ih (List.append_cancel_left h)⟩

/-- The bytes of a text begin with those of another only if the text does. -/
theorem toList_prefix_of_ofString {a b : String} (h : ofString a <+: ofString b) :
    a.toList <+: b.toList := by
  obtain ⟨rest, hrest⟩ := h
  exact prefix_of_flatMap_utf8EncodeChar hrest

end Blob

/-! ## Device ids that exclude each other -/

/-- Whether no device id of a list is a prefix of another. -/
def PrefixFree (devices : List String) : Prop :=
  ∀ a ∈ devices, ∀ b ∈ devices, a.toList <+: b.toList → a = b

instance (devices : List String) : Decidable (PrefixFree devices) :=
  inferInstanceAs (Decidable (∀ a ∈ devices, ∀ b ∈ devices, a.toList <+: b.toList → a = b))

namespace PrefixFree

variable {devices : List String} {a b : String} {p key : Blob}

/-- **Among such devices a stored key tells whose it is.** -/
theorem append_prefix_iff (h : PrefixFree devices) (ha : a ∈ devices) (hb : b ∈ devices) :
    Blob.ofString a ++ p <+: Blob.ofString b ++ key ↔ a = b ∧ p <+: key := by
  constructor
  · intro hpfx
    have hab : a = b := by
      rcases List.prefix_or_prefix_of_prefix ((List.prefix_append _ _).trans hpfx)
        (List.prefix_append (Blob.ofString b) key) with hle | hge
      · exact h a ha b hb (Blob.toList_prefix_of_ofString hle)
      · exact (h b hb a ha (Blob.toList_prefix_of_ofString hge)).symm
    subst hab
    exact ⟨rfl, (List.prefix_append_right_inj _).mp hpfx⟩
  · rintro ⟨rfl, hp⟩
    exact (List.prefix_append_right_inj _).mpr hp

theorem append_inj (h : PrefixFree devices) (ha : a ∈ devices) (hb : b ∈ devices)
    (heq : Blob.ofString a ++ p = Blob.ofString b ++ key) : a = b ∧ p = key := by
  have hpfx : Blob.ofString a ++ p <+: Blob.ofString b ++ key := heq ▸ List.prefix_refl _
  obtain ⟨rfl, -⟩ := (h.append_prefix_iff ha hb).mp hpfx
  exact ⟨rfl, List.append_cancel_left heq⟩

end PrefixFree

end PeerStore
