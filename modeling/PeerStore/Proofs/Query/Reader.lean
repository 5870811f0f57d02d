import PeerStore.Proofs.Query.Literal
import PeerStore.Proofs.Query.Phrase

/-!
# Reading arguments

The readers of the compiler take tokens from the front. For each of them, one lemma says which
tokens it takes (`Tokens.Took`) and what it makes of them. It holds in both directions, so no
reader has to be opened after this.
-/

set_option autoImplicit false

namespace PeerStore.Query

/-! ## Reading one token -/

theorem readLiteral_eq_ok_iff {kw : Keyword} {type : FieldType} {token : String} {v : Literal} :
    readLiteral kw type token = .ok v ↔ Literal.Written type token v := by
  rw [← literal?_eq_some_iff]
  unfold readLiteral
  cases literal? type token <;> simp

theorem readType_eq_ok_iff {kw : Keyword} {tag : String} {type : FieldType} :
    readType kw tag = .ok type ↔ tag = type.tag := by
  have hread : readType kw tag = .ok type ↔ FieldType.ofTag? tag = some type := by
    unfold readType
    cases FieldType.ofTag? tag <;> simp
  rw [hread]
  constructor
  · intro h
    have htag := List.find?_some h
    exact (of_decide_eq_true htag).symm
  · rintro rfl
    cases type <;> rfl

theorem readCount_eq_ok_iff {kw : Keyword} {token : String} {n : Nat} :
    readCount kw token = .ok n ↔ WritesCount token n := by
  unfold readCount
  constructor
  · intro h
    split at h
    · rename_i m hm
      obtain ⟨hwrites, hwidth⟩ := (Decimal.intOfWidth?_eq_some_iff 32 (by decide)).mp hm
      have hlt := (Decimal.hasWidth_32_iff.mp hwidth).2
      split at h
      · rename_i hpos
        cases h
        refine ⟨?_, by omega⟩
        rwa [Int.toNat_of_nonneg hpos]
      · cases h
    · cases h
  · rintro ⟨hwrites, hle⟩
    have hwidth : Decimal.HasWidth 32 n := Decimal.hasWidth_32_iff.mpr (by omega)
    have hread : Decimal.intOfWidth? 32 token = some (n : Int) :=
      (Decimal.intOfWidth?_eq_some_iff 32 (by decide)).mpr ⟨hwrites, hwidth⟩
    simp [hread]

/-! ## Taking tokens -/

namespace Tokens

/-- Whether the tokens that a reader took, and those it left, are all that it had. -/
structure Took (ts : Tokens) (taken : List String) (ts' : Tokens) : Prop where
  rest : ts.rest = taken ++ ts'.rest
  read : ts'.read = ts.read + taken.length

theorem took_append {ts ts' : Tokens} {front back : List String} :
    ts.Took (front ++ back) ts' ↔ ∃ mid, ts.Took front mid ∧ mid.Took back ts' := by
  constructor
  · rintro ⟨hrest, hread⟩
    refine ⟨⟨ts.read + front.length, back ++ ts'.rest⟩, ⟨?_, rfl⟩, ⟨rfl, ?_⟩⟩
    · rw [hrest, List.append_assoc]
    · rw [hread, List.length_append, Nat.add_assoc]
  · rintro ⟨mid, ⟨hrest, hread⟩, ⟨hrest', hread'⟩⟩
    constructor
    · rw [hrest, hrest', List.append_assoc]
    · rw [hread', hread, List.length_append, Nat.add_assoc]

@[simp] theorem took_nil {ts ts' : Tokens} : ts.Took [] ts' ↔ ts' = ts := by
  constructor
  · rintro ⟨hrest, hread⟩
    cases ts
    cases ts'
    simp_all
  · rintro rfl
    exact ⟨rfl, rfl⟩

theorem next?_eq_some_iff {ts ts' : Tokens} {token : String} :
    ts.next? = some (token, ts') ↔ ts.Took [token] ts' := by
  obtain ⟨read, rest⟩ := ts
  obtain ⟨read', rest'⟩ := ts'
  unfold next?
  constructor
  · intro h
    split at h
    · cases h
    · rename_i t rest hrest
      cases hrest
      cases h
      exact ⟨rfl, rfl⟩
  · rintro ⟨hrest, hread⟩
    obtain rfl : rest = token :: rest' := hrest
    obtain rfl : read' = read + 1 := hread
    rfl

theorem next?_eq_none_iff {ts : Tokens} : ts.next? = none ↔ ts.rest = [] := by
  unfold next?
  split <;> simp_all

theorem take?_eq_some_iff {ts ts' : Tokens} {n : Nat} {taken : List String} :
    ts.take? n = some (taken, ts') ↔ ts.Took taken ts' ∧ taken.length = n := by
  obtain ⟨read, rest⟩ := ts
  obtain ⟨read', rest'⟩ := ts'
  unfold take?
  constructor
  · intro h
    split at h
    · rename_i hle
      cases h
      have hlength := List.length_take_of_le hle
      exact ⟨⟨(List.take_append_drop n rest).symm, by rw [hlength]⟩, hlength⟩
    · cases h
  · rintro ⟨⟨hrest, hread⟩, rfl⟩
    obtain rfl : rest = taken ++ rest' := hrest
    obtain rfl : read' = read + taken.length := hread
    simp

theorem Took.take? {ts ts' : Tokens} {taken : List String} (h : ts.Took taken ts') (n : Nat)
    (hn : taken.length = n) : ts.take? n = some (taken, ts') :=
  take?_eq_some_iff.mpr ⟨h, hn⟩

theorem takeUntil?_eq_some_iff {ts ts' : Tokens} {mark : String} {items : List String} :
    ts.takeUntil? mark = some (items, ts') ↔ ts.Took (items ++ [mark]) ts' ∧ mark ∉ items := by
  obtain ⟨read, rest⟩ := ts
  obtain ⟨read', rest'⟩ := ts'
  unfold takeUntil?
  constructor
  · intro h
    split at h
    · rename_i hmem
      obtain ⟨front, back, rfl, hfront⟩ :=
        List.eq_append_cons_of_mem (List.contains_iff_mem.mp hmem)
      rw [takeWhile_append_mark hfront] at h
      cases h
      refine ⟨⟨?_, ?_⟩, hfront⟩
      · simp
      · simp [Nat.add_assoc]
    · cases h
  · rintro ⟨⟨hrest, hread⟩, hmark⟩
    obtain rfl : rest = items ++ mark :: rest' := by
      rw [show rest = items ++ [mark] ++ rest' from hrest, List.append_assoc]
      rfl
    obtain rfl : read' = read + (items.length + 1) := by simpa using hread
    simp [takeWhile_append_mark hmark, Nat.add_assoc]

end Tokens

/-! ## Taking arguments -/

theorem bind_eq_ok_iff {ε α β : Type} {x : Except ε α} {f : α → Except ε β} {b : β} :
    x >>= f = .ok b ↔ ∃ a, x = .ok a ∧ f a = .ok b := by
  cases x with
  | error e => simp [bind, Except.bind]
  | ok a => simp [bind, Except.bind]

theorem mapM_readLiteral_eq_ok_iff {kw : Keyword} {type : FieldType} {tokens : List String}
    {values : List Literal} : tokens.mapM (readLiteral kw type) = .ok values ↔
      List.Forall₂ (Literal.Written type) tokens values := by
  induction tokens generalizing values with
  | nil =>
      constructor
      · intro h
        cases h
        exact .nil
      · intro h
        cases h
        rfl
  | cons token tokens ih =>
      rw [List.mapM_cons, bind_eq_ok_iff]
      constructor
      · rintro ⟨v, hv, hrest⟩
        obtain ⟨vs, hvs, hpure⟩ := bind_eq_ok_iff.mp hrest
        cases hpure
        exact .cons (readLiteral_eq_ok_iff.mp hv) (ih.mp hvs)
      · intro h
        cases h with
        | cons hv hvs =>
            exact ⟨_, readLiteral_eq_ok_iff.mpr hv, bind_eq_ok_iff.mpr ⟨_, ih.mpr hvs, rfl⟩⟩

theorem takeToken_eq_ok_iff {kw : Keyword} {ts ts' : Tokens} {token : String} :
    takeToken kw ts = .ok (token, ts') ↔ ts.Took [token] ts' := by
  rw [← Tokens.next?_eq_some_iff]
  unfold takeToken
  cases ts.next? <;> simp

theorem takeText_eq_ok_iff {kw : Keyword} {ts ts' : Tokens} {text : String} :
    takeText kw ts = .ok (text, ts') ↔ ∃ token, ts.Took [token] ts' ∧ text = unescape token := by
  unfold takeText
  constructor
  · intro h
    split at h
    · rename_i token ts₁ htoken
      cases h
      exact ⟨token, takeToken_eq_ok_iff.mp htoken, rfl⟩
    · cases h
  · rintro ⟨token, htook, rfl⟩
    simp [takeToken_eq_ok_iff.mpr htook]

theorem takeFieldAndPattern_eq_ok_iff {kw : Keyword} {ts ts' : Tokens} {field pattern : String} :
    takeFieldAndPattern kw ts = .ok (field, pattern, ts') ↔ ∃ name text,
      ts.Took [name, text] ts' ∧ field = unescape name ∧ pattern = unescape text := by
  unfold takeFieldAndPattern
  constructor
  · intro h
    split at h
    · rename_i name text ts₁ htake
      cases h
      exact ⟨name, text, (Tokens.take?_eq_some_iff.mp htake).1, rfl, rfl⟩
    · cases h
  · rintro ⟨name, text, htook, rfl, rfl⟩
    rw [htook.take? 2 rfl]

theorem takeComparison_eq_ok_iff {op : CompareOp} {ts ts' : Tokens} {p : Predicate} :
    takeComparison op ts = .ok (p, ts') ↔ ∃ (type : FieldType) (name token : String) (v : Literal),
      ts.Took [type.tag, name, token] ts' ∧ ¬(op.isOrdering = true ∧ type = .bool) ∧
        Literal.Written type token v ∧ p = .compare op (unescape name) v := by
  unfold takeComparison
  constructor
  · intro h
    split at h
    · rename_i tag name token ts₁ htake
      obtain ⟨type, htype, h⟩ := bind_eq_ok_iff.mp h
      obtain rfl := readType_eq_ok_iff.mp htype
      split at h
      · cases h
      · rename_i hbool
        obtain ⟨v, hv, h⟩ := bind_eq_ok_iff.mp h
        cases h
        exact ⟨type, name, token, v, (Tokens.take?_eq_some_iff.mp htake).1, by simpa using hbool,
          readLiteral_eq_ok_iff.mp hv, rfl⟩
    · cases h
  · rintro ⟨type, name, token, v, htook, hbool, hv, rfl⟩
    have htype : readType op.keyword type.tag = .ok type := readType_eq_ok_iff.mpr rfl
    rw [htook.take? 3 rfl]
    refine bind_eq_ok_iff.mpr ⟨type, htype, ?_⟩
    rw [if_neg (by simpa using hbool)]
    exact bind_eq_ok_iff.mpr ⟨v, readLiteral_eq_ok_iff.mpr hv, rfl⟩

theorem takeValueList_eq_ok_iff {kw : Keyword} {ts ts' : Tokens} {field : String}
    {values : List Literal} :
    takeValueList kw ts = .ok (field, values, ts') ↔
      ∃ (type : FieldType) (name : String) (tokens : List String),
        ts.Took (type.tag :: name :: listStart :: (tokens ++ [listEnd])) ts' ∧ listEnd ∉ tokens ∧
          type ≠ .bool ∧ List.Forall₂ (Literal.Written type) tokens values ∧
            field = unescape name := by
  unfold takeValueList
  constructor
  · intro h
    split at h
    · rename_i tag name start ts₁ htake
      split at h
      · cases h
      rename_i hstart
      obtain rfl : start = listStart := not_not.mp hstart
      obtain ⟨type, htype, h⟩ := bind_eq_ok_iff.mp h
      obtain rfl := readType_eq_ok_iff.mp htype
      split at h
      · cases h
      rename_i hbool
      split at h
      · cases h
      · -- The three tokens in front and the list were taken one after the other.
        rename_i tokens ts₂ huntil
        obtain ⟨vs, hvs, h⟩ := bind_eq_ok_iff.mp h
        cases h
        obtain ⟨hitems, hend⟩ := Tokens.takeUntil?_eq_some_iff.mp huntil
        have htook : ts.Took ([type.tag, name, listStart] ++ (tokens ++ [listEnd])) ts' :=
          Tokens.took_append.mpr ⟨ts₁, (Tokens.take?_eq_some_iff.mp htake).1, hitems⟩
        exact ⟨type, name, tokens, htook, hend, by simpa using hbool,
          mapM_readLiteral_eq_ok_iff.mp hvs, rfl⟩
    · cases h
  · rintro ⟨type, name, tokens, htook, hend, hbool, hvalues, rfl⟩
    obtain ⟨ts₁, hhead, hitems⟩ := Tokens.took_append.mp
      (show ts.Took ([type.tag, name, listStart] ++ (tokens ++ [listEnd])) ts' from htook)
    have htype : readType kw type.tag = .ok type := readType_eq_ok_iff.mpr rfl
    rw [hhead.take? 3 rfl]
    refine (if_neg (not_not.mpr rfl)).trans (bind_eq_ok_iff.mpr ⟨type, htype, ?_⟩)
    rw [if_neg (by simpa using hbool), Tokens.takeUntil?_eq_some_iff.mpr ⟨hitems, hend⟩]
    exact bind_eq_ok_iff.mpr ⟨values, mapM_readLiteral_eq_ok_iff.mpr hvalues, rfl⟩

theorem takeKeyList_eq_ok_iff {kw : Keyword} {ts ts' : Tokens} {keys : KeySet Blob} :
    takeKeyList kw ts = .ok (keys, ts') ↔ ∃ names : List String,
      ts.Took (listStart :: (names ++ [listEnd])) ts' ∧ listEnd ∉ names ∧ names ≠ [] ∧
        keys = KeySet.ofList (names.map fun name => Blob.ofString (unescape name)) := by
  unfold takeKeyList
  constructor
  · intro h
    obtain ⟨⟨start, ts₁⟩, htoken, h⟩ := bind_eq_ok_iff.mp h
    dsimp only at h
    split at h
    · cases h
    rename_i hstart
    obtain rfl : start = listStart := not_not.mp hstart
    split at h
    · cases h
    · cases h
    · -- An empty list was refused by the case before.
      rename_i names ts₂ hne huntil
      cases h
      obtain ⟨hitems, hend⟩ := Tokens.takeUntil?_eq_some_iff.mp huntil
      have htook : ts.Took ([listStart] ++ (names ++ [listEnd])) ts' :=
        Tokens.took_append.mpr ⟨ts₁, takeToken_eq_ok_iff.mp htoken, hitems⟩
      exact ⟨names, htook, hend, hne, rfl⟩
  · rintro ⟨names, htook, hend, hne, rfl⟩
    obtain ⟨ts₁, hhead, hitems⟩ := Tokens.took_append.mp
      (show ts.Took ([listStart] ++ (names ++ [listEnd])) ts' from htook)
    refine bind_eq_ok_iff.mpr ⟨(listStart, ts₁), takeToken_eq_ok_iff.mpr hhead, ?_⟩
    refine (if_neg (not_not.mpr rfl)).trans ?_
    rw [Tokens.takeUntil?_eq_some_iff.mpr ⟨hitems, hend⟩]
    cases names with
    | nil => exact absurd rfl hne
    | cons name names => rfl

/-- The mark of a direction. -/
def directionMark (ascending : Bool) : String :=
  if ascending then ascendingMark else descendingMark

theorem takeDirection_eq_ok_iff {ts ts' : Tokens} {ascending : Bool} :
    takeDirection ts = .ok (ascending, ts') ↔ ts.Took [directionMark ascending] ts' := by
  unfold takeDirection
  constructor
  · intro h
    obtain ⟨⟨mark, ts₁⟩, htoken, h⟩ := bind_eq_ok_iff.mp h
    have htook := takeToken_eq_ok_iff.mp htoken
    dsimp only at h
    split at h
    · rename_i hmark
      cases h
      rwa [hmark] at htook
    split at h
    · rename_i hmark
      cases h
      rwa [hmark] at htook
    · cases h
  · intro htook
    refine bind_eq_ok_iff.mpr ⟨_, takeToken_eq_ok_iff.mpr htook, ?_⟩
    cases ascending <;> rfl

theorem takeLimit_eq_ok_iff {ts ts' : Tokens} {clause : Clause} :
    takeLimit ts = .ok (clause, ts') ↔ ∃ (number offset : String) (n o : Nat),
      ts.Took [number, offset] ts' ∧ WritesCount number n ∧ WritesCount offset o ∧
        clause = .limit n o := by
  unfold takeLimit
  constructor
  · intro h
    split at h
    · rename_i number offset ts₁ htake
      obtain ⟨n, hn, h⟩ := bind_eq_ok_iff.mp h
      obtain ⟨o, ho, h⟩ := bind_eq_ok_iff.mp h
      cases h
      exact ⟨number, offset, n, o, (Tokens.take?_eq_some_iff.mp htake).1,
        readCount_eq_ok_iff.mp hn, readCount_eq_ok_iff.mp ho, rfl⟩
    · cases h
  · rintro ⟨number, offset, n, o, htook, hn, ho, rfl⟩
    rw [htook.take? 2 rfl]
    exact bind_eq_ok_iff.mpr ⟨n, readCount_eq_ok_iff.mpr hn,
      bind_eq_ok_iff.mpr ⟨o, readCount_eq_ok_iff.mpr ho, rfl⟩⟩

end PeerStore.Query
