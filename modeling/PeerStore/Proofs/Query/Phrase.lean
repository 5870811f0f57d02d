import Mathlib.Data.List.Basic
import PeerStore.Query.Keyword

/-!
# Phrases of query text

Query text is a sequence of phrases: a keyword, and behind it the arguments that its `Shape` asks
for. A `Phrase` carries the proof that it has them. No two splits of the same tokens into phrases
differ (**`Phrase.split_unique`**), for the shape of the keyword says where a phrase ends.
-/

set_option autoImplicit false

namespace PeerStore.Query

/-! ## Keywords as tokens -/

namespace Keyword

/-- A token is the keyword that it writes. -/
theorem ofText?_eq_some_iff {token : String} {kw : Keyword} :
    ofText? token = some kw ↔ token = kw.text := by
  constructor
  · intro h
    have hkw := List.find?_some h
    exact (of_decide_eq_true hkw).symm
  · rintro rfl
    cases kw <;> rfl

theorem text_injective {kw kw' : Keyword} (h : kw.text = kw'.text) : kw = kw' := by
  have hkw : ofText? kw.text = some kw' := ofText?_eq_some_iff.mpr h
  rw [ofText?_eq_some_iff.mpr rfl] at hkw
  exact Option.some.inj hkw

end Keyword

/-! ## Shapes -/

/-- What stands behind a keyword. -/
inductive Shape where
  /-- A number of arguments. -/
  | fixed (n : Nat)
  /-- A type and a field, and then values between the list marks. -/
  | valueList
  /-- At least one key, between the list marks. -/
  | keyList
  deriving DecidableEq, Repr

/-- The shape of what stands behind a keyword. -/
def Keyword.shape : Keyword → Shape
  | equal | notEqual | greater | less | greaterOrEqual | lessOrEqual => .fixed 3
  | like | notLike | limit => .fixed 2
  | isNull | isNotNull | ascending | descending | writeTime | keyPrefix | suggestIndex
  | deviceId => .fixed 1
  | and | or | beginGroup | endGroup => .fixed 0
  | oneOf | noneOf => .valueList
  | inKeys => .keyList

/-- Whether tokens are arguments of a shape. The items of a list are the tokens up to the first end
mark. -/
inductive Shape.Fits : Shape → List String → Prop where
  | fixed {n : Nat} {args : List String} : args.length = n → Fits (.fixed n) args
  | valueList {values : List String} (tag field : String) : listEnd ∉ values →
      Fits .valueList (tag :: field :: listStart :: (values ++ [listEnd]))
  | keyList {keys : List String} : keys ≠ [] → listEnd ∉ keys →
      Fits .keyList (listStart :: (keys ++ [listEnd]))

/-- The items before the first mark. -/
theorem takeWhile_append_mark {mark : String} {items : List String} (h : mark ∉ items)
    (rest : List String) : (items ++ mark :: rest).takeWhile (· != mark) = items := by
  have hitems : ∀ item ∈ items, (item != mark) = true := by
    intro item hitem
    rw [bne_iff_ne]
    rintro rfl
    exact h hitem
  rw [List.takeWhile_append_of_pos hitems, List.takeWhile_cons_of_neg (by simp), List.append_nil]

/-- Where a list ends is settled by its first end mark. -/
theorem append_mark_inj {mark : String} {items items' rest rest' : List String}
    (h : mark ∉ items) (h' : mark ∉ items')
    (heq : items ++ [mark] ++ rest = items' ++ [mark] ++ rest') : items = items' ∧ rest = rest' := by
  have hitems : items = items' := by
    have htake := congrArg (List.takeWhile (· != mark)) heq
    rw [List.append_assoc, List.append_assoc] at htake
    exact (takeWhile_append_mark h rest).symm.trans (htake.trans (takeWhile_append_mark h' rest'))
  subst hitems
  exact ⟨rfl, List.append_cancel_left heq⟩

/-- **Where arguments end is settled by their shape.** -/
theorem Shape.Fits.append_inj {shape : Shape} {args args' rest rest' : List String}
    (h : shape.Fits args) (h' : shape.Fits args') (heq : args ++ rest = args' ++ rest') :
    args = args' ∧ rest = rest' := by
  cases h with
  | fixed hn =>
      cases h' with
      | fixed hn' => exact List.append_inj heq (hn.trans hn'.symm)
  | valueList tag field hvalues =>
      cases h' with
      | valueList tag' field' hvalues' =>
          simp only [List.cons_append, List.cons.injEq] at heq
          obtain ⟨rfl, rfl, -, htail⟩ := heq
          obtain ⟨rfl, rfl⟩ := append_mark_inj hvalues hvalues' htail
          exact ⟨rfl, rfl⟩
  | keyList _ hkeys =>
      cases h' with
      | keyList _ hkeys' =>
          simp only [List.cons_append, List.cons.injEq] at heq
          obtain ⟨rfl, rfl⟩ := append_mark_inj hkeys hkeys' heq.2
          exact ⟨rfl, rfl⟩

/-! ## Phrases -/

/-- A keyword with its arguments. -/
structure Phrase where
  keyword : Keyword
  args : List String
  fits : keyword.shape.Fits args

namespace Phrase

/-- The tokens of a phrase. -/
def tokens (p : Phrase) : List String := p.keyword.text :: p.args

/-- Whether phrases are a split of tokens. -/
def Split (tokens : List String) (phrases : List Phrase) : Prop :=
  tokens = phrases.flatMap Phrase.tokens

/-- The phrase at the front is settled by the tokens. -/
theorem tokens_append_inj {p q : Phrase} {rest rest' : List String}
    (h : p.tokens ++ rest = q.tokens ++ rest') : p = q ∧ rest = rest' := by
  obtain ⟨kw, args, hfits⟩ := p
  obtain ⟨kw', args', hfits'⟩ := q
  simp only [tokens, List.cons_append, List.cons.injEq] at h
  obtain rfl := Keyword.text_injective h.1
  obtain ⟨rfl, rfl⟩ := hfits.append_inj hfits' h.2
  exact ⟨rfl, rfl⟩

/-- **Tokens split into phrases in one way at most.** -/
theorem split_unique {tokens : List String} {ps qs : List Phrase} (hp : Split tokens ps)
    (hq : Split tokens qs) : ps = qs := by
  have heq : ps.flatMap Phrase.tokens = qs.flatMap Phrase.tokens := hp.symm.trans hq
  clear hp hq
  induction ps generalizing qs with
  | nil =>
      cases qs with
      | nil => rfl
      | cons q qs => exact absurd heq (by simp [Phrase.tokens])
  | cons p ps ih =>
      cases qs with
      | nil => exact absurd heq (by simp [Phrase.tokens])
      | cons q qs =>
          -- The keyword in front fixes the shape, and the shape where the phrase ends.
          obtain ⟨rfl, htail⟩ := tokens_append_inj heq
          rw [ih htail]

end Phrase

end PeerStore.Query
