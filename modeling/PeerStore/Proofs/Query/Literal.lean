import PeerStore.Query.Compile
import PeerStore.Proofs.Decimal
import PeerStore.Proofs.Double
import PeerStore.Proofs.Query.Token

/-!
# Literals of query text

`Literal.Written` relates a token to the literal of some type that it writes, and `WritesCount` to
a number of results. A literal is read exactly from the tokens that write it
(**`literal?_eq_some_iff`**), and the token of a literal is one of them (`Literal.written_token`).
-/

set_option autoImplicit false

namespace PeerStore.Query

/-! ## Written literals -/

/-- Whether a token writes a literal of a type. -/
inductive Literal.Written : FieldType → String → Literal → Prop where
  | int {token : String} (n : Int32) : Decimal.Writes token.toList n.toInt →
      Written .integer token (.int n)
  | long {token : String} (n : Int64) : Decimal.Writes token.toList n.toInt →
      Written .long token (.long n)
  | double {token : String} {x : Double} : Double.ofText? token = some x →
      Written .double token (.double x)
  | true : Written .bool "true" (.bool true)
  | false : Written .bool "false" (.bool false)
  | str (token : String) : Written .string token (.str (unescape token))

/-- Whether a token writes a number of results. It has to fit in 32 bits with a sign. -/
structure WritesCount (token : String) (n : Nat) : Prop where
  writes : Decimal.Writes token.toList n
  le : n ≤ 2147483647

theorem literal?_eq_some_iff {type : FieldType} {token : String} {v : Literal} :
    literal? type token = some v ↔ Literal.Written type token v := by
  constructor
  · intro h
    cases type with
    | integer =>
        obtain ⟨n, hn, rfl⟩ := Option.map_eq_some_iff.mp h
        obtain ⟨hwrites, hwidth⟩ := (Decimal.intOfWidth?_eq_some_iff 32 (by decide)).mp hn
        refine .int _ ?_
        rwa [Int32.toInt_ofInt_of_le hwidth.1 hwidth.2]
    | long =>
        obtain ⟨n, hn, rfl⟩ := Option.map_eq_some_iff.mp h
        obtain ⟨hwrites, hwidth⟩ := (Decimal.intOfWidth?_eq_some_iff 64 (by decide)).mp hn
        refine .long _ ?_
        rwa [Int64.toInt_ofInt_of_le hwidth.1 hwidth.2]
    | double =>
        obtain ⟨x, hx, rfl⟩ := Option.map_eq_some_iff.mp h
        exact .double hx
    | bool =>
        by_cases htrue : token = "true"
        · subst htrue
          cases h
          exact .true
        by_cases hfalse : token = "false"
        · subst hfalse
          cases h
          exact .false
        · simp [literal?] at h
    | string =>
        cases h
        exact .str token
  · intro h
    cases h with
    | int n hwrites =>
        have hread := (Decimal.intOfWidth?_eq_some_iff 32 (by decide)).mpr
          ⟨hwrites, n.le_toInt, n.toInt_lt⟩
        simp [literal?, hread]
    | long n hwrites =>
        have hread := (Decimal.intOfWidth?_eq_some_iff 64 (by decide)).mpr
          ⟨hwrites, n.le_toInt, n.toInt_lt⟩
        simp [literal?, hread]
    | double hx => simp [literal?, hx]
    | true => rfl
    | false => rfl
    | str => rfl

/-! ## Printed literals -/

/-- Doubles apart, the token of a literal writes it. -/
theorem Literal.written_token {v : Literal} (h : v.type ≠ .double) :
    Literal.Written v.type v.token v := by
  cases v with
  | int n => exact .int n (Decimal.Writes.toString n.toInt)
  | long n => exact .long n (Decimal.Writes.toString n.toInt)
  | double x => exact absurd rfl h
  | bool b =>
      cases b
      · exact .false
      · exact .true
  | str s =>
      have hwritten := Written.str (escape s)
      rwa [unescape_escape] at hwritten

/-- The token of a literal writes a literal of its type. -/
theorem Literal.exists_written (v : Literal) : ∃ v', Literal.Written v.type v.token v' := by
  by_cases h : v.type = .double
  · cases v with
    | double x =>
        obtain ⟨y, hy⟩ := Double.ofText?_text x
        exact ⟨_, .double hy⟩
    | _ => cases h
  · exact ⟨v, written_token h⟩

/-- The token of a literal is no word with a caret that would be written otherwise. -/
theorem Literal.token_ne {v : Literal} {word : String} (hcaret : '^' ∈ word.toList)
    (hword : escape (unescape word) ≠ word) : v.token ≠ word := by
  have hnumeral : ∀ n : Int, ToString.toString n ≠ word := by
    rintro n rfl
    exact (Decimal.Writes.toString n).notMem (by decide) (by decide) hcaret
  cases v with
  | int n => exact hnumeral n.toInt
  | long n => exact hnumeral n.toInt
  | double x =>
      rintro rfl
      exact x.notMem_text (by decide) (by decide) hcaret
  | bool b =>
      rintro rfl
      cases b
      · exact absurd hcaret (by decide +kernel)
      · exact absurd hcaret (by decide +kernel)
  | str s => exact escape_ne hword s

theorem WritesCount.toString {n : Nat} (h : n ≤ 2147483647) : WritesCount (toString n) n :=
  ⟨Decimal.Writes.toString_nat n, h⟩

theorem Literals.type_eq {values : Literals} {v : Literal} (h : v ∈ values.toList) :
    v.type = values.type := by
  cases values <;> obtain ⟨x, -, rfl⟩ := List.mem_map.mp h <;> rfl

/-- Doubles apart, the tokens of a list write its literals. -/
theorem Literals.written_tokens {values : Literals} (h : ∀ v ∈ values.toList, v.type ≠ .double) :
    List.Forall₂ (Literal.Written values.type) (values.toList.map Literal.token) values.toList := by
  have hwritten : ∀ v ∈ values.toList, Literal.Written values.type v.token v := by
    intro v hv
    rw [← type_eq hv]
    exact Literal.written_token (h v hv)
  generalize values.toList = vs at hwritten
  induction vs with
  | nil => exact .nil
  | cons v vs ih =>
      obtain ⟨hv, hvs⟩ := List.forall_mem_cons.mp hwritten
      exact .cons hv (ih hvs)

/-- The tokens of a list write literals of its type. -/
theorem Literals.exists_written (values : Literals) :
    ∃ vs, List.Forall₂ (Literal.Written values.type) (values.toList.map Literal.token) vs := by
  have hwritten : ∀ v ∈ values.toList, ∃ v', Literal.Written values.type v.token v' := by
    intro v hv
    rw [← type_eq hv]
    exact v.exists_written
  generalize values.toList = vs at hwritten
  induction vs with
  | nil => exact ⟨[], .nil⟩
  | cons v vs ih =>
      obtain ⟨⟨v', hv⟩, hvs⟩ := List.forall_mem_cons.mp hwritten
      obtain ⟨vs', hvs'⟩ := ih hvs
      exact ⟨v' :: vs', .cons hv hvs'⟩

end PeerStore.Query
