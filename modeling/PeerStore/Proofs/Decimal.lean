import Mathlib.Tactic.Common
import PeerStore.Decimal

/-!
# Decimal numerals

`Writes` says which integer a numeral writes, whatever its size. Reading an integer of some width
gives the integer that the numeral writes, if it has that width
(**`intOfWidth?_eq_some_iff`**): where the reader stops taking in digits, the number is out of
range already. Every integer has a numeral, the one that is printed (`Writes.toString`).
-/

set_option autoImplicit false

namespace PeerStore.Decimal

/-! ## Numerals -/

/-- A natural number as digits, at least one. -/
structure WritesNat (cs : List Char) (n : Nat) : Prop where
  ne_nil : cs ≠ []
  isDigit : ∀ c ∈ cs, c.isDigit = true
  value : Nat.ofDigitChars 10 cs 0 = n

/-- An integer as digits, with or without a sign. -/
inductive Writes : List Char → Int → Prop where
  | digits {cs : List Char} {n : Nat} : WritesNat cs n → Writes cs n
  | plus {cs : List Char} {n : Nat} : WritesNat cs n → Writes ('+' :: cs) n
  | minus {cs : List Char} {n : Nat} : WritesNat cs n → Writes ('-' :: cs) (-n)

theorem WritesNat.toDigits (n : Nat) : WritesNat (Nat.toDigits 10 n) n where
  ne_nil := Nat.toDigits_ne_nil
  isDigit _ hc := Nat.isDigit_of_mem_toDigits (by decide) (by decide) hc
  value := Nat.ofDigitChars_ten_toDigits

/-- A printed natural number writes it. -/
theorem Writes.toString_nat (n : Nat) : Writes (toString n).toList n := by
  rw [Nat.toString_eq_repr, Nat.toList_repr]
  exact .digits (.toDigits n)

/-- A printed integer writes it. -/
theorem Writes.toString (n : Int) : Writes (toString n).toList n := by
  cases n with
  | ofNat n => exact toString_nat n
  | negSucc n =>
      have htext : (ToString.toString (Int.negSucc n)).toList = '-' :: Nat.toDigits 10 (n + 1) := by
        rw [← Nat.toList_repr]
        simp [ToString.toString, Int.repr]
      rw [htext]
      exact .minus (.toDigits (n + 1))

theorem Writes.ne_nil {cs : List Char} {n : Int} (h : Writes cs n) : cs ≠ [] := by
  cases h with
  | digits h => exact h.ne_nil
  | plus | minus => exact List.cons_ne_nil _ _

/-- A numeral has only digits and signs. -/
theorem Writes.isDigit_or_sign {cs : List Char} {n : Int} (h : Writes cs n) :
    ∀ c ∈ cs, c.isDigit = true ∨ c = '+' ∨ c = '-' := by
  intro c hc
  cases h with
  | digits h => exact .inl (h.isDigit c hc)
  | plus h =>
      rcases List.mem_cons.mp hc with rfl | hc
      · exact .inr (.inl rfl)
      · exact .inl (h.isDigit c hc)
  | minus h =>
      rcases List.mem_cons.mp hc with rfl | hc
      · exact .inr (.inr rfl)
      · exact .inl (h.isDigit c hc)

theorem Writes.notMem {cs : List Char} {n : Int} (h : Writes cs n) {c : Char}
    (hdigit : c.isDigit = false) (hsign : c ≠ '+' ∧ c ≠ '-') : c ∉ cs := by
  intro hc
  rcases h.isDigit_or_sign c hc with hisDigit | rfl | rfl
  · rw [hdigit] at hisDigit
    cases hisDigit
  · exact hsign.1 rfl
  · exact hsign.2 rfl

/-- Digits do not begin with a sign. -/
theorem WritesNat.head?_ne {cs : List Char} {n : Nat} (h : WritesNat cs n) {c : Char}
    (hc : c.isDigit = false) : cs.head? ≠ some c := by
  intro hhead
  have hdigit := h.isDigit c (List.mem_of_mem_head? hhead)
  rw [hc] at hdigit
  cases hdigit

/-- A numeral writes one integer. -/
theorem Writes.unique {cs : List Char} {m n : Int} (hm : Writes cs m) (hn : Writes cs n) :
    m = n := by
  cases hm with
  | digits hm =>
      cases hn with
      | digits hn => rw [← hm.value, hn.value]
      | plus | minus => exact absurd rfl (hm.head?_ne (by decide))
  | plus hm =>
      cases hn with
      | digits hn => exact absurd rfl (hn.head?_ne (by decide))
      | plus hn => rw [← hm.value, hn.value]
  | minus hm =>
      cases hn with
      | digits hn => exact absurd rfl (hn.head?_ne (by decide))
      | minus hn => rw [← hm.value, hn.value]

/-- The digits ahead only add to a number. -/
theorem le_ofDigitChars (cs : List Char) (n : Nat) : n ≤ Nat.ofDigitChars 10 cs n := by
  rw [Nat.ofDigitChars_eq_ofDigitChars_zero]
  have hpos : 1 ≤ 10 ^ cs.length := Nat.one_le_pow _ _ (by decide)
  calc n = 1 * n := (Nat.one_mul n).symm
    _ ≤ 10 ^ cs.length * n := Nat.mul_le_mul_right n hpos
    _ ≤ _ := Nat.le_add_right _ _

/-! ## Reading digits -/

/-- A number stands for another under a cap: the two are the same, or both have reached it. -/
def Agrees (cap m n : Nat) : Prop := m = n ∨ cap ≤ m ∧ cap ≤ n

theorem digit?_of_isDigit {c : Char} (h : c.isDigit = true) :
    digit? c = some (c.toNat - '0'.toNat) := by
  rw [Char.isDigit_iff_toNat] at h
  simp only [digit?, Bool.and_eq_true, decide_eq_true_eq]
  exact if_pos h

theorem isDigit_of_digit? {c : Char} {d : Nat} (h : digit? c = some d) : c.isDigit = true := by
  rw [Char.isDigit_iff_toNat]
  simp only [digit?, Bool.and_eq_true, decide_eq_true_eq] at h
  split at h
  · assumption
  · cases h

/-- Digits are read, up to the cap. -/
theorem extend_of_isDigit (cap : Nat) {cs : List Char} (h : ∀ c ∈ cs, c.isDigit = true) (n : Nat) :
    ∃ m, extend cap n cs = some m ∧ Agrees cap m (Nat.ofDigitChars 10 cs n) := by
  induction cs generalizing n with
  | nil => exact ⟨n, rfl, .inl (Nat.ofDigitChars_nil).symm⟩
  | cons c cs ih =>
      obtain ⟨hc, hcs⟩ := List.forall_mem_cons.mp h
      simp only [extend, digit?_of_isDigit hc, Nat.ofDigitChars_cons]
      by_cases hn : n < cap
      · rw [if_pos hn, Nat.mul_comm n 10]
        exact ih hcs _
      · -- The digit is dropped: the number has reached the cap, with it or without it.
        rw [if_neg hn]
        obtain ⟨m, hm, hagrees⟩ := ih hcs n
        refine ⟨m, hm, .inr ⟨?_, ?_⟩⟩
        · have hge := le_ofDigitChars cs n
          rcases hagrees with rfl | ⟨hle, -⟩ <;> omega
        · have hge := le_ofDigitChars cs (10 * n + (c.toNat - '0'.toNat))
          omega

theorem isDigit_of_extend {cap : Nat} {cs : List Char} {n m : Nat}
    (h : extend cap n cs = some m) : ∀ c ∈ cs, c.isDigit = true := by
  induction cs generalizing n with
  | nil => simp
  | cons c cs ih =>
      simp only [extend] at h
      split at h
      · cases h
      · rename_i d hd
        exact List.forall_mem_cons.mpr ⟨isDigit_of_digit? hd, ih h⟩

theorem digits?_of_writes (cap : Nat) {cs : List Char} {n : Nat} (h : WritesNat cs n) :
    ∃ m, digits? cap cs = some m ∧ Agrees cap m n := by
  obtain ⟨m, hm, hagrees⟩ := extend_of_isDigit cap h.isDigit 0
  rw [h.value] at hagrees
  cases cs with
  | nil => exact absurd rfl h.ne_nil
  | cons c cs => exact ⟨m, hm, hagrees⟩

theorem writes_of_digits? {cap : Nat} {cs : List Char} {m : Nat} (h : digits? cap cs = some m) :
    ∃ n, WritesNat cs n ∧ Agrees cap m n := by
  cases cs with
  | nil => cases h
  | cons c cs =>
      have hwrites : WritesNat (c :: cs) _ := ⟨by simp, isDigit_of_extend h, rfl⟩
      obtain ⟨m', hm', hagrees⟩ := digits?_of_writes cap hwrites
      obtain rfl : m = m' := Option.some.inj (h.symm.trans hm')
      exact ⟨_, hwrites, hagrees⟩

/-! ## Reading integers -/

/-- Under a cap, an integer stands for another as their sizes do, on the same side of zero. -/
inductive AgreesInt (cap : Nat) : Int → Int → Prop where
  | pos {m n : Nat} : Agrees cap m n → AgreesInt cap m n
  | neg {m n : Nat} : Agrees cap m n → AgreesInt cap (-m) (-n)

theorem signed?_minus (cap : Nat) (cs : List Char) :
    signed? cap ('-' :: cs) = (digits? cap cs).map fun n : Nat => (-n : Int) := by
  cases h : digits? cap cs <;> simp [signed?, h]

theorem signed?_plus (cap : Nat) (cs : List Char) :
    signed? cap ('+' :: cs) = (digits? cap cs).map Int.ofNat := by
  cases h : digits? cap cs <;> simp [signed?, h]

theorem signed?_unsigned (cap : Nat) {cs : List Char} (hminus : cs.head? ≠ some '-')
    (hplus : cs.head? ≠ some '+') : signed? cap cs = (digits? cap cs).map Int.ofNat := by
  unfold signed?
  split
  · exact absurd rfl hminus
  · exact absurd rfl hplus
  · cases h : digits? cap cs <;> simp

/-- Digits are read as they are: they do not begin with a sign. -/
theorem WritesNat.signed? (cap : Nat) {cs : List Char} {n : Nat} (h : WritesNat cs n) :
    signed? cap cs = (digits? cap cs).map Int.ofNat :=
  signed?_unsigned cap (h.head?_ne (by decide)) (h.head?_ne (by decide))

theorem signed?_of_writes (cap : Nat) {cs : List Char} {n : Int} (h : Writes cs n) :
    ∃ m, signed? cap cs = some m ∧ AgreesInt cap m n := by
  cases h with
  | digits h =>
      obtain ⟨m, hm, hagrees⟩ := digits?_of_writes cap h
      exact ⟨m, by rw [h.signed?, hm]; rfl, .pos hagrees⟩
  | plus h =>
      obtain ⟨m, hm, hagrees⟩ := digits?_of_writes cap h
      exact ⟨m, by rw [signed?_plus, hm]; rfl, .pos hagrees⟩
  | minus h =>
      obtain ⟨m, hm, hagrees⟩ := digits?_of_writes cap h
      exact ⟨-m, by rw [signed?_minus, hm]; rfl, .neg hagrees⟩

theorem writes_of_signed? {cap : Nat} {cs : List Char} {m : Int} (h : signed? cap cs = some m) :
    ∃ n, Writes cs n ∧ AgreesInt cap m n := by
  by_cases hminus : cs.head? = some '-'
  · obtain ⟨cs, rfl⟩ := List.head?_eq_some_iff.mp hminus
    rw [signed?_minus] at h
    obtain ⟨m, hm, rfl⟩ := Option.map_eq_some_iff.mp h
    obtain ⟨n, hn, hagrees⟩ := writes_of_digits? hm
    exact ⟨-n, .minus hn, .neg hagrees⟩
  by_cases hplus : cs.head? = some '+'
  · obtain ⟨cs, rfl⟩ := List.head?_eq_some_iff.mp hplus
    rw [signed?_plus] at h
    obtain ⟨m, hm, rfl⟩ := Option.map_eq_some_iff.mp h
    obtain ⟨n, hn, hagrees⟩ := writes_of_digits? hm
    exact ⟨n, .plus hn, .pos hagrees⟩
  · rw [signed?_unsigned cap hminus hplus] at h
    obtain ⟨m, hm, rfl⟩ := Option.map_eq_some_iff.mp h
    obtain ⟨n, hn, hagrees⟩ := writes_of_digits? hm
    exact ⟨n, .digits hn, .pos hagrees⟩

/-- Whether an integer has a width, in bits, with its sign. -/
def HasWidth (bits : Nat) (n : Int) : Prop :=
  -Int.pow 2 (bits - 1) ≤ n ∧ n < Int.pow 2 (bits - 1)

theorem hasWidth_32_iff {n : Int} : HasWidth 32 n ↔ -2147483648 ≤ n ∧ n < 2147483648 :=
  Iff.rfl

/-- Integers that agree under the cap of a width have the width both or neither, and if they have
it, they are the same. -/
theorem AgreesInt.hasWidth {bits : Nat} (hbits : 0 < bits) {m n : Int}
    (h : AgreesInt (Nat.pow 2 bits) m n) : m = n ∨ ¬HasWidth bits m ∧ ¬HasWidth bits n := by
  obtain ⟨k, rfl⟩ : ∃ k, bits = k + 1 := ⟨bits - 1, by omega⟩
  have hpow : ((Nat.pow 2 k : Nat) : Int) = Int.pow 2 k := Int.natCast_pow 2 k
  have hcap : Nat.pow 2 (k + 1) = Nat.pow 2 k * 2 := rfl
  have hpos : 0 < Nat.pow 2 k := Nat.pow_pos (by decide)
  rw [hcap] at h
  simp only [HasWidth, Nat.add_sub_cancel, ← hpow]
  cases h with
  | pos h =>
      rcases h with rfl | ⟨hm, hn⟩
      · exact .inl rfl
      · right; omega
  | neg h =>
      rcases h with rfl | ⟨hm, hn⟩
      · exact .inl rfl
      · right; omega

/-- What is read has the width: the range is checked behind the digits. -/
theorem intOfWidth?_eq_some_iff_signed? {bits : Nat} {s : String} {n : Int} :
    intOfWidth? bits s = some n ↔
      signed? (Nat.pow 2 bits) s.toList = some n ∧ HasWidth bits n := by
  unfold intOfWidth? HasWidth
  cases signed? (Nat.pow 2 bits) s.toList with
  | none => simp
  | some m =>
      simp only [Bool.and_eq_true, decide_eq_true_eq, Option.some.injEq]
      constructor
      · intro h
        split at h
        · obtain rfl := Option.some.inj h
          exact ⟨rfl, ‹_›⟩
        · cases h
      · rintro ⟨rfl, hwidth⟩
        exact if_pos hwidth

/-- **A numeral is read as the integer that it writes, if that has the width.** -/
theorem intOfWidth?_eq_some_iff (bits : Nat) (hbits : 0 < bits) {s : String} {n : Int} :
    intOfWidth? bits s = some n ↔ Writes s.toList n ∧ HasWidth bits n := by
  rw [intOfWidth?_eq_some_iff_signed?]
  constructor
  · rintro ⟨hsigned, hwidth⟩
    obtain ⟨m, hm, hagrees⟩ := writes_of_signed? hsigned
    obtain rfl | ⟨hno, -⟩ := hagrees.hasWidth hbits
    · exact ⟨hm, hwidth⟩
    · exact absurd hwidth hno
  · rintro ⟨hwrites, hwidth⟩
    obtain ⟨m, hm, hagrees⟩ := signed?_of_writes (Nat.pow 2 bits) hwrites
    obtain rfl | ⟨-, hno⟩ := hagrees.hasWidth hbits
    · exact ⟨hm, hwidth⟩
    · exact absurd hwidth hno

end PeerStore.Decimal
