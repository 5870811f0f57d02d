/-!
# Splitting text

`split sep` cuts a text at every separator; `split_append` and `joinWith_split` say that the
pieces are exactly what stood between them.
-/

set_option autoImplicit false

namespace PeerStore

/-- The pieces between the separators, always one more than there are separators. -/
def split (sep : Char) : List Char → List (List Char)
  | [] => [[]]
  | c :: cs =>
      if c = sep then [] :: split sep cs
      else
        match split sep cs with
        | [] => [[c]]
        | piece :: pieces => (c :: piece) :: pieces

/-- Puts one separator between any two pieces. -/
def joinWith (sep : Char) : List (List Char) → List Char
  | [] => []
  | [piece] => piece
  | piece :: pieces => piece ++ sep :: joinWith sep pieces

theorem split_ne_nil (sep : Char) (cs : List Char) : split sep cs ≠ [] := by
  induction cs with
  | nil => simp [split]
  | cons c cs ih =>
      simp only [split]
      split
      · simp
      · split <;> simp

/-- A piece without separators is cut off at the first separator. -/
theorem split_append {sep : Char} {piece : List Char} (h : sep ∉ piece) (cs : List Char) :
    split sep (piece ++ sep :: cs) = piece :: split sep cs := by
  induction piece with
  | nil => simp [split]
  | cons c piece ih =>
      have hc : c ≠ sep := fun hc => h (hc ▸ List.mem_cons_self ..)
      have ih := ih fun hm => h (List.mem_cons_of_mem _ hm)
      simp [split, hc, ih]

theorem split_of_notMem {sep : Char} {piece : List Char} (h : sep ∉ piece) :
    split sep piece = [piece] := by
  induction piece with
  | nil => rfl
  | cons c piece ih =>
      have hc : c ≠ sep := fun hc => h (hc ▸ List.mem_cons_self ..)
      have ih := ih fun hm => h (List.mem_cons_of_mem _ hm)
      simp [split, hc, ih]

/-- Splitting undoes joining, for pieces without separators. -/
theorem split_joinWith {sep : Char} {pieces : List (List Char)} (hne : pieces ≠ [])
    (h : ∀ p ∈ pieces, sep ∉ p) : split sep (joinWith sep pieces) = pieces := by
  induction pieces with
  | nil => exact absurd rfl hne
  | cons p ps ih =>
      cases ps with
      | nil => exact split_of_notMem (h p (List.mem_cons_self ..))
      | cons q qs =>
          rw [joinWith, split_append (h p (List.mem_cons_self ..)),
            ih (by simp) fun r hr => h r (List.mem_cons_of_mem _ hr)]
          simp

/-- Joining undoes splitting. -/
theorem joinWith_split (sep : Char) (cs : List Char) : joinWith sep (split sep cs) = cs := by
  induction cs with
  | nil => rfl
  | cons c cs ih =>
      simp only [split]
      split
      · rename_i hc
        cases hs : split sep cs with
        | nil => exact absurd hs (split_ne_nil sep cs)
        | cons p ps =>
            rw [joinWith, ← hs, ih]
            · simp [hc]
            · simp
      · cases hs : split sep cs with
        | nil => exact absurd hs (split_ne_nil sep cs)
        | cons p ps =>
            rw [hs] at ih
            cases ps with
            | nil => simpa [joinWith] using ih
            | cons q qs => simpa [joinWith] using ih

end PeerStore
