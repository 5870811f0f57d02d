import Mathlib.Data.List.TakeWhile
import PeerStore.Double.Text

/-!
# Doubles as text

The text of a double is a numeral in positional notation, or one of the words for infinity and NaN,
with a minus sign or without one. So it reads as some double (**`ofText?_text`**), and it has no
characters but those of numerals and of these words (`notMem_text`).
-/

set_option autoImplicit false

namespace PeerStore.Double

/-! ## Positional numerals -/

/-- A numeral in positional notation: digits, at least one, and behind a point further digits. -/
inductive Positional : List Char → Prop where
  | whole {ds : List Char} : ds ≠ [] → (∀ c ∈ ds, c.isDigit = true) → Positional ds
  | point {ds es : List Char} : ds ≠ [] → (∀ c ∈ ds, c.isDigit = true) →
      (∀ c ∈ es, c.isDigit = true) → Positional (ds ++ '.' :: es)

theorem isDigit_replicate_zero (n : Nat) : ∀ c ∈ List.replicate n '0', c.isDigit = true := by
  intro c hc
  rw [List.eq_of_mem_replicate hc]
  rfl

/-- **Decimals are written as positional numerals.** -/
theorem positional_positional (d : Decimals) : Positional (positional d) := by
  have hne : Nat.toDigits 10 d.digits ≠ [] := Nat.toDigits_ne_nil
  have hdigits : ∀ c ∈ Nat.toDigits 10 d.digits, c.isDigit = true :=
    fun _ hc => Nat.isDigit_of_mem_toDigits (by decide) (by decide) hc
  have hzeros := isDigit_replicate_zero
  unfold positional
  dsimp only
  split
  · exact .whole (List.append_ne_nil_of_left_ne_nil hne _)
      (List.forall_mem_append.mpr ⟨hdigits, hzeros _⟩)
  split
  · rename_i hplaces
    refine .point ?_ (fun c hc => hdigits c (List.mem_of_mem_take hc))
      fun c hc => hdigits c (List.mem_of_mem_drop hc)
    rw [← List.length_pos_iff, List.length_take]
    omega
  · exact .point (List.cons_ne_nil '0' []) (List.forall_mem_singleton.mpr rfl)
      (List.forall_mem_append.mpr ⟨hzeros _, hdigits⟩)

theorem Positional.chars {cs : List Char} (h : Positional cs) :
    ∀ c ∈ cs, c.isDigit = true ∨ c = '.' := by
  intro c hc
  cases h with
  | whole _ hds => exact .inl (hds c hc)
  | point _ hds hes =>
      simp only [List.mem_append, List.mem_cons] at hc
      rcases hc with hc | rfl | hc
      · exact .inl (hds c hc)
      · exact .inr rfl
      · exact .inl (hes c hc)

/-! ## Reading -/

/-- Digits are split off as a whole. -/
theorem spanDigits_append {ds rest : List Char} (hds : ∀ c ∈ ds, c.isDigit = true)
    (hrest : ∀ c, rest.head? = some c → c.isDigit = false) : spanDigits (ds ++ rest) = (ds, rest) := by
  have htake : rest.takeWhile Char.isDigit = [] := by
    cases rest with
    | nil => rfl
    | cons c rest => exact List.takeWhile_cons_of_neg (by simp [hrest c rfl])
  have hdrop : rest.dropWhile Char.isDigit = rest := by
    cases rest with
    | nil => rfl
    | cons c rest => exact List.dropWhile_cons_of_neg (by simp [hrest c rfl])
  rw [spanDigits, List.takeWhile_append_of_pos hds, List.dropWhile_append_of_pos hds, htake, hdrop,
    List.append_nil]

/-- A positional numeral reads as a decimal without an exponent. -/
theorem Positional.readDecimal? {cs : List Char} (h : Positional cs) (negative : Bool) :
    ∃ x, readDecimal? negative cs = some x := by
  cases h with
  | whole hne hds =>
      have hspan : spanDigits (cs ++ []) = (cs, []) := spanDigits_append hds (by simp)
      rw [List.append_nil] at hspan
      simp [Double.readDecimal?, hspan, hne, readExponent?]
  | @point ds es hne hds hes =>
      have hwhole : spanDigits (ds ++ '.' :: es) = (ds, '.' :: es) :=
        spanDigits_append hds (by simp)
      have hfraction : spanDigits (es ++ []) = (es, []) := spanDigits_append hes (by simp)
      rw [List.append_nil] at hfraction
      simp [Double.readDecimal?, hwhole, hfraction, hne, readExponent?]

/-- What is written behind the sign of a double. -/
inductive Unsigned : List Char → Prop where
  | nan : Unsigned "NaN".toList
  | infinity : Unsigned "inf".toList
  | positional {cs : List Char} : Positional cs → Unsigned cs

theorem Unsigned.readUnsigned? {cs : List Char} (h : Unsigned cs) (negative : Bool) :
    ∃ x, readUnsigned? negative cs = some x := by
  cases h with
  | nan | infinity => exact ⟨_, rfl⟩
  | positional h =>
      obtain ⟨x, hx⟩ := h.readDecimal? negative
      unfold Double.readUnsigned?
      dsimp only
      split
      · exact ⟨_, rfl⟩
      split
      · exact ⟨_, rfl⟩
      · exact ⟨x, hx⟩

/-- The characters of numerals and of the words for infinity and NaN. -/
theorem Unsigned.chars {cs : List Char} (h : Unsigned cs) :
    ∀ c ∈ cs, c.isDigit = true ∨ c ∈ ['.', 'N', 'a', 'i', 'n', 'f'] := by
  cases h with
  | nan | infinity => simp
  | positional h =>
      intro c hc
      rcases h.chars c hc with hdigit | rfl
      · exact .inl hdigit
      · exact .inr (by decide)

theorem Unsigned.notMem {cs : List Char} (h : Unsigned cs) {c : Char} (hdigit : c.isDigit = false)
    (hc : c ∉ ['.', 'N', 'a', 'i', 'n', 'f']) : c ∉ cs := by
  intro hmem
  rcases h.chars c hmem with hisDigit | hother
  · rw [hdigit] at hisDigit
    cases hisDigit
  · exact hc hother

/-- The text of a double is an unsigned text, behind a minus sign or behind none. -/
theorem text_unsigned (x : Double) :
    ∃ cs, Unsigned cs ∧ (x.text.toList = cs ∨ x.text.toList = '-' :: cs) := by
  unfold text
  split
  · exact ⟨_, .nan, .inl rfl⟩
  · have hbody : Unsigned (if x.isInfinite then "inf".toList
        else if x.magnitude = 0 then ['0'] else positional x.shortest) := by
      split
      · exact .infinity
      split
      · exact .positional (.whole (List.cons_ne_nil '0' []) (List.forall_mem_singleton.mpr rfl))
      · exact .positional (positional_positional _)
    refine ⟨_, hbody, ?_⟩
    dsimp only
    rw [String.toList_ofList]
    split
    · exact .inr rfl
    · exact .inl rfl

/-- **The text of a double reads as a double.** -/
theorem ofText?_text (x : Double) : ∃ y, ofText? x.text = some y := by
  obtain ⟨cs, hcs, htext⟩ := text_unsigned x
  unfold ofText?
  rcases htext with htext | htext
  · rw [htext]
    split
    · exact absurd (List.mem_cons_self ..) (hcs.notMem (by decide) (by decide))
    · exact absurd (List.mem_cons_self ..) (hcs.notMem (by decide) (by decide))
    · exact hcs.readUnsigned? false
  · rw [htext]
    exact hcs.readUnsigned? true

theorem text_ne_nil (x : Double) : x.text.toList ≠ [] := by
  obtain ⟨cs, hcs, htext⟩ := text_unsigned x
  rcases htext with htext | htext
  · rw [htext]
    cases hcs with
    | nan | infinity => decide
    | positional h =>
        cases h with
        | whole hne => exact hne
        | point => simp
  · simp [htext]

/-- A text of a double has only digits, a point, a sign and the letters of its words. -/
theorem notMem_text (x : Double) {c : Char} (hdigit : c.isDigit = false)
    (hc : c ∉ ['-', '.', 'N', 'a', 'i', 'n', 'f']) : c ∉ x.text.toList := by
  obtain ⟨hsign, hc⟩ := not_or.mp (mt List.mem_cons.mpr hc)
  obtain ⟨cs, hcs, htext⟩ := text_unsigned x
  have hbody := hcs.notMem hdigit hc
  rcases htext with htext | htext
  · rwa [htext]
  · rw [htext]
    rw [List.mem_cons]
    exact not_or.mpr ⟨hsign, hbody⟩

end PeerStore.Double
