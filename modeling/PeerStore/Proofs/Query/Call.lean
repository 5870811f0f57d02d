import PeerStore.Proofs.Query.Grammar

/-!
# Calls on a builder

What a call asks for is its clause (`Call.clause?`), which depends on nothing but the device of the
scope. An accepted call adds one phrase that means its clause, whatever surrounds it
(**`call_writes`**); a call that sets the scope, or is rejected, adds no tokens.
-/

set_option autoImplicit false

namespace PeerStore.Query

namespace Builder

/-! ## What calls ask for -/

namespace Call

/-- The network id that a call scopes the query to. -/
def network? : Call → Option String
  | .deviceId network => some network
  | _ => none

/-- The clause that a call asks for, in a query that is scoped to a device or to none. A key prefix
is one of the stored keys of the device. -/
def clause? (device : Option String) : Call → Option Clause
  | .compare op field value => some (.part (.test (.compare op field value)))
  | .oneOf field values => some (.part (.test (.oneOf field values.toList)))
  | .noneOf field values => some (.part (.test (.noneOf field values.toList)))
  | .like field text => some (.part (.test (.like field text)))
  | .notLike field text => some (.part (.test (.notLike field text)))
  | .isNull field => some (.part (.test (.isNull field)))
  | .isNotNull field => some (.part (.test (.isNotNull field)))
  | .and => some (.part .and)
  | .or => some (.part .or)
  | .beginGroup => some (.part .beginGroup)
  | .endGroup => some (.part .endGroup)
  | .orderBy field ascending => some (.orderBy field ascending)
  | .orderByWriteTime ascending => some (.orderByWriteTime ascending)
  | .limit number offset => some (.limit number offset)
  | .keyPrefix pfx =>
      some (.keyPrefix ((device.map Blob.ofString).getD [] ++ Blob.ofString pfx))
  | .suggestIndex index => some (.suggestIndex index)
  | .inKeys keys => some (.inKeys (KeySet.ofList (keys.map Blob.ofString)))
  | .deviceId _ => none
  | .reset => none

/-- Whether a call restricts the query to a key prefix. -/
def isKeyPrefix : Call → Bool
  | .keyPrefix _ => true
  | _ => false

/-- Whether a call has no doubles, and no number of results that is out of range. -/
def Plain : Call → Prop
  | .compare _ _ value => value.type ≠ .double
  | .oneOf _ values => ∀ v ∈ values.toList, v.type ≠ .double
  | .noneOf _ values => ∀ v ∈ values.toList, v.type ≠ .double
  | .limit number offset => number ≤ 2147483647 ∧ offset ≤ 2147483647
  | _ => True

end Call

/-! ## Accepted calls -/

section

variable {b : Builder} {kw : Keyword}

theorem reject_rejected (why : Rejection) : (b.reject kw why).rejected ≠ none := by
  unfold reject
  cases b.rejected <;> simp

theorem named_eq {name : String} (h : (b.named kw name).rejected = none) :
    b.named kw name = b.append [kw.text, escape name] := by
  unfold named at h ⊢
  split at h
  · rename_i hname
    exact if_pos hname
  · exact absurd h (reject_rejected _)

theorem pattern_eq {field text : String} (h : (b.pattern kw field text).rejected = none) :
    b.pattern kw field text = b.append [kw.text, escape field, escape text] := by
  unfold pattern at h ⊢
  split at h
  · rename_i hname
    exact if_pos hname
  · exact absurd h (reject_rejected _)

theorem compare_eq {op : CompareOp} {field : String} {value : Literal}
    (h : (b.compare op field value).rejected = none) :
    b.compare op field value =
        b.append [op.keyword.text, value.type.tag, escape field, value.token] ∧
      ¬(op.isOrdering = true ∧ value.type = .bool) := by
  unfold compare at h ⊢
  split at h
  · exact absurd h (reject_rejected _)
  split at h
  · exact absurd h (reject_rejected _)
  · rename_i hname hbool
    rw [if_neg hname, if_neg hbool]
    exact ⟨rfl, by simpa using hbool⟩

theorem list_eq {field : String} {values : Literals}
    (h : (b.list kw field values).rejected = none) :
    b.list kw field values =
        b.append (kw.text :: values.type.tag :: escape field :: listStart ::
          (values.toList.map Literal.token ++ [listEnd])) ∧ values.type ≠ .bool := by
  unfold list at h ⊢
  split at h
  · exact absurd h (reject_rejected _)
  split at h
  · exact absurd h (reject_rejected _)
  · rename_i hname hbool
    rw [if_neg hname, if_neg hbool]
    exact ⟨rfl, by simpa using hbool⟩

theorem inKeys_eq {keys : List String} (h : (b.inKeys keys).rejected = none) :
    b.inKeys keys =
        { b.append (Keyword.inKeys.text :: listStart :: (keys.map escape ++ [listEnd])) with
          hasKeys := true } ∧ keys ≠ [] := by
  unfold inKeys at h ⊢
  split at h
  · exact absurd h (reject_rejected _)
  split at h
  · exact absurd h (reject_rejected _)
  split at h
  · rename_i hne hkeys hnames
    rw [if_neg hne, if_neg hkeys, if_pos hnames]
    exact ⟨rfl, by simpa using hne⟩
  · exact absurd h (reject_rejected _)

/-- A scope is kept apart from the tokens. -/
theorem call_deviceId_tokens (network : String) :
    (b.call (.deviceId network)).tokens = b.tokens := by
  simp only [Builder.call]
  split <;> rfl

/-- Before an accepted call no call was rejected, and only a scope changes the scope. -/
theorem call_rest {call : Call} (haccepted : (b.call call).rejected = none)
    (hreset : call ≠ .reset) :
    b.rejected = none ∧ (b.call call).network = call.network?.or b.network := by
  cases call with
  | compare op field value =>
      simp only [Builder.call, (compare_eq haccepted).1] at haccepted ⊢
      exact ⟨haccepted, rfl⟩
  | oneOf field values | noneOf field values =>
      simp only [Builder.call, (list_eq haccepted).1] at haccepted ⊢
      exact ⟨haccepted, rfl⟩
  | like field text | notLike field text =>
      simp only [Builder.call, pattern_eq haccepted] at haccepted ⊢
      exact ⟨haccepted, rfl⟩
  | isNull name | isNotNull name | keyPrefix name | suggestIndex name | orderBy name ascending =>
      simp only [Builder.call, named_eq haccepted] at haccepted ⊢
      exact ⟨haccepted, rfl⟩
  | inKeys keys =>
      simp only [Builder.call, (inKeys_eq haccepted).1] at haccepted ⊢
      exact ⟨haccepted, rfl⟩
  | and | or | beginGroup | endGroup | orderByWriteTime ascending | limit number offset =>
      exact ⟨haccepted, rfl⟩
  | deviceId network =>
      simp only [Builder.call] at haccepted ⊢
      split at haccepted
      · rename_i hname
        rw [if_pos hname]
        exact ⟨haccepted, rfl⟩
      · exact absurd haccepted (reject_rejected _)
  | reset => exact absurd rfl hreset

end

/-! ## Phrases of calls -/

/-- Whether a token may stand behind a keyword: it is not taken for a key prefix clause. -/
structure IsArgument (token : String) : Prop extends IsToken token where
  ne_keyPrefix : token ≠ Keyword.keyPrefix.text

instance (token : String) : Decidable (IsArgument token) :=
  decidable_of_iff (IsToken token ∧ token ≠ Keyword.keyPrefix.text)
    ⟨fun h => ⟨h.1, h.2⟩, fun h => ⟨h.1, h.2⟩⟩

theorem IsArgument.escape (s : String) : IsArgument (escape s) :=
  ⟨.escape s, escape_ne_keyword s .keyPrefix⟩

theorem IsArgument.of_writes {token : String} {n : Int} (h : Decimal.Writes token.toList n) :
    IsArgument token := by
  refine ⟨⟨h.ne_nil, h.notMem (by decide) (by decide)⟩, ?_⟩
  rintro rfl
  exact h.notMem (c := '^') (by decide) (by decide) (by decide +kernel)

theorem IsArgument.count (n : Nat) : IsArgument (toString n) :=
  .of_writes (Decimal.Writes.toString_nat n)

theorem IsArgument.tag (type : FieldType) : IsArgument type.tag := by
  cases type <;> decide +kernel

theorem IsArgument.directionMark (ascending : Bool) : IsArgument (directionMark ascending) := by
  cases ascending <;> decide +kernel

theorem IsArgument.text (x : Double) : IsArgument x.text := by
  refine ⟨⟨x.text_ne_nil, x.notMem_text (by decide) (by decide)⟩, ?_⟩
  intro heq
  have hcaret := x.notMem_text (c := '^') (by decide) (by decide)
  rw [heq] at hcaret
  exact hcaret (by decide +kernel)

theorem IsArgument.token (v : Literal) : IsArgument v.token := by
  cases v with
  | int n => exact .of_writes (Decimal.Writes.toString n.toInt)
  | long n => exact .of_writes (Decimal.Writes.toString n.toInt)
  | double x => exact .text x
  | bool b => cases b <;> decide +kernel
  | str s => exact .escape s

/-- The marks around arguments are arguments. -/
theorem isArgument_marked {tokens : List String} (h : ∀ token ∈ tokens, IsArgument token) :
    ∀ arg ∈ listStart :: (tokens ++ [listEnd]), IsArgument arg := by
  intro arg harg
  simp only [List.mem_cons, List.mem_append, List.not_mem_nil, or_false] at harg
  rcases harg with rfl | harg | rfl
  · decide +kernel
  · exact h arg harg
  · decide +kernel

theorem listEnd_notMem_tokens (values : Literals) :
    listEnd ∉ values.toList.map Literal.token := by
  rw [List.mem_map]
  rintro ⟨v, -, htoken⟩
  exact Literal.token_ne (by decide +kernel) (by decide +kernel) htoken

theorem listEnd_notMem_keys (keys : List String) : listEnd ∉ keys.map escape := by
  rw [List.mem_map]
  rintro ⟨key, -, htoken⟩
  exact escape_ne_listEnd key htoken

/-- Whether a phrase is how a call is written. -/
structure Call.WrittenAs (call : Call) (p : Phrase) : Prop where
  /-- In every context the phrase means the clause of the call. -/
  reads : ∀ (c : Compiler) (ctx : Context), ∃ clause, call.clause? ctx.device = some clause ∧
    c.Reads ctx p.keyword p.args [clause] ctx
  isArgument : ∀ arg ∈ p.args, IsArgument arg
  keyPrefix : p.keyword = .keyPrefix ↔ call.isKeyPrefix = true

section

variable {b : Builder} {call : Call} {kw : Keyword} {args : List String}

/-- Arguments that mean the clause of a call make a phrase of it. -/
theorem Call.writes_of (htokens : (b.call call).tokens = b.tokens ++ kw.text :: args)
    (hreads : ∀ (c : Compiler) (ctx : Context), ∃ clause, call.clause? ctx.device = some clause ∧
      c.Reads ctx kw args [clause] ctx)
    (hargs : ∀ arg ∈ args, IsArgument arg)
    (hkeyPrefix : kw = .keyPrefix ↔ call.isKeyPrefix = true) :
    ∃ p : Phrase, (b.call call).tokens = b.tokens ++ p.tokens ∧ call.WrittenAs p := by
  obtain ⟨clause, -, h⟩ := hreads {} ⟨false, none⟩
  exact ⟨⟨kw, args, h.fits⟩, htokens, hreads, hargs, hkeyPrefix⟩

/-- Calls with one name. -/
theorem named_writes {name : String} (haccepted : (b.named kw name).rejected = none)
    (clause : Context → String → Clause)
    (hreads : ∀ (c : Compiler) ctx text, c.Reads ctx kw [text] [clause ctx (unescape text)] ctx)
    (hcall : b.call call = b.named kw name)
    (hclause : ∀ ctx, call.clause? ctx.device = some (clause ctx name))
    (hkeyPrefix : kw = .keyPrefix ↔ call.isKeyPrefix = true) :
    ∃ p : Phrase, (b.call call).tokens = b.tokens ++ p.tokens ∧ call.WrittenAs p := by
  refine Call.writes_of (congrArg Builder.tokens (hcall.trans (named_eq haccepted))) ?_
    (by simp [IsArgument.escape]) hkeyPrefix
  intro c ctx
  have h := hreads c ctx (escape name)
  rw [unescape_escape] at h
  exact ⟨_, hclause ctx, h⟩

/-- Calls with a field and a pattern. -/
theorem pattern_writes {field text : String} (haccepted : (b.pattern kw field text).rejected = none)
    (test : String → String → Predicate)
    (hreads : ∀ (c : Compiler) ctx name text, c.Reads ctx kw [name, text]
      [.part (.test (test (unescape name) (unescape text)))] ctx)
    (hcall : b.call call = b.pattern kw field text)
    (hclause : ∀ ctx : Context, call.clause? ctx.device = some (.part (.test (test field text))))
    (hkeyPrefix : kw = .keyPrefix ↔ call.isKeyPrefix = true) :
    ∃ p : Phrase, (b.call call).tokens = b.tokens ++ p.tokens ∧ call.WrittenAs p := by
  refine Call.writes_of (congrArg Builder.tokens (hcall.trans (pattern_eq haccepted))) ?_
    (by simp [IsArgument.escape]) hkeyPrefix
  intro c ctx
  have h := hreads c ctx (escape field) (escape text)
  rw [unescape_escape, unescape_escape] at h
  exact ⟨_, hclause ctx, h⟩

/-- Calls with a list of literals. -/
theorem list_writes {field : String} {values : Literals}
    (haccepted : (b.list kw field values).rejected = none)
    (hplain : ∀ v ∈ values.toList, v.type ≠ .double) (test : String → List Literal → Predicate)
    (hreads : ∀ (c : Compiler) ctx {type : FieldType} {tokens : List String}
      {values : List Literal} (name : String), listEnd ∉ tokens → type ≠ .bool →
      List.Forall₂ (Literal.Written type) tokens values →
      c.Reads ctx kw (type.tag :: name :: listStart :: (tokens ++ [listEnd]))
        [.part (.test (test (unescape name) values))] ctx)
    (hcall : b.call call = b.list kw field values)
    (hclause : ∀ ctx : Context,
      call.clause? ctx.device = some (.part (.test (test field values.toList))))
    (hkeyPrefix : kw = .keyPrefix ↔ call.isKeyPrefix = true) :
    ∃ p : Phrase, (b.call call).tokens = b.tokens ++ p.tokens ∧ call.WrittenAs p := by
  obtain ⟨heq, hbool⟩ := list_eq haccepted
  have htokens : ∀ token ∈ values.toList.map Literal.token, IsArgument token :=
    List.forall_mem_map.mpr fun v _ => .token v
  refine Call.writes_of (congrArg Builder.tokens (hcall.trans heq)) ?_ ?_ hkeyPrefix
  · intro c ctx
    have h := hreads c ctx (escape field) (listEnd_notMem_tokens values) hbool
      (Literals.written_tokens hplain)
    rw [unescape_escape] at h
    exact ⟨_, hclause ctx, h⟩
  · exact List.forall_mem_cons.mpr ⟨.tag _,
      List.forall_mem_cons.mpr ⟨.escape field, isArgument_marked htokens⟩⟩

theorem storedPrefix_eq (ctx : Context) (pfx : String) :
    ctx.storedPrefix pfx = (ctx.device.map Blob.ofString).getD [] ++ Blob.ofString pfx := by
  unfold Context.storedPrefix
  cases ctx.device <;> rfl

/-- **An accepted call adds one phrase, and the phrase means its clause.** -/
theorem call_writes (haccepted : (b.call call).rejected = none) (hplain : call.Plain)
    (hnetwork : call.network? = none) (hreset : call ≠ .reset) :
    ∃ p : Phrase, (b.call call).tokens = b.tokens ++ p.tokens ∧ call.WrittenAs p := by
  cases call with
  | compare op field value =>
      obtain ⟨heq, hbool⟩ := compare_eq haccepted
      refine Call.writes_of (congrArg Builder.tokens heq) ?_ ?_ ?_
      · intro c ctx
        have hreads : c.Reads ctx _ _ _ ctx :=
          .compare op (escape field) hbool (Literal.written_token hplain)
        rw [unescape_escape] at hreads
        exact ⟨_, rfl, hreads⟩
      · simp [IsArgument.tag, IsArgument.escape, IsArgument.token]
      · cases op <;> simp [CompareOp.keyword, Call.isKeyPrefix]
  | oneOf field values =>
      exact list_writes haccepted hplain .oneOf (fun _ _ => .oneOf) rfl (fun _ => rfl)
        (by simp [Call.isKeyPrefix])
  | noneOf field values =>
      exact list_writes haccepted hplain .noneOf (fun _ _ => .noneOf) rfl (fun _ => rfl)
        (by simp [Call.isKeyPrefix])
  | like field text =>
      exact pattern_writes haccepted .like (fun _ _ => .like) rfl (fun _ => rfl)
        (by simp [Call.isKeyPrefix])
  | notLike field text =>
      exact pattern_writes haccepted .notLike (fun _ _ => .notLike) rfl (fun _ => rfl)
        (by simp [Call.isKeyPrefix])
  | isNull field =>
      exact named_writes haccepted (fun _ field => .part (.test (.isNull field)))
        (fun _ _ => .isNull) rfl (fun _ => rfl) (by simp [Call.isKeyPrefix])
  | isNotNull field =>
      exact named_writes haccepted (fun _ field => .part (.test (.isNotNull field)))
        (fun _ _ => .isNotNull) rfl (fun _ => rfl) (by simp [Call.isKeyPrefix])
  | and =>
      exact Call.writes_of rfl (fun _ _ => ⟨_, rfl, .and⟩) (by simp) (by simp [Call.isKeyPrefix])
  | or =>
      exact Call.writes_of rfl (fun _ _ => ⟨_, rfl, .or⟩) (by simp) (by simp [Call.isKeyPrefix])
  | beginGroup =>
      exact Call.writes_of rfl (fun _ _ => ⟨_, rfl, .beginGroup⟩) (by simp)
        (by simp [Call.isKeyPrefix])
  | endGroup =>
      exact Call.writes_of rfl (fun _ _ => ⟨_, rfl, .endGroup⟩) (by simp)
        (by simp [Call.isKeyPrefix])
  | orderBy field ascending =>
      cases ascending with
      | true =>
          exact named_writes haccepted (fun _ field => .orderBy field true)
            (fun _ _ => .ascending) rfl (fun _ => rfl) (by simp [Call.isKeyPrefix])
      | false =>
          exact named_writes haccepted (fun _ field => .orderBy field false)
            (fun _ _ => .descending) rfl (fun _ => rfl) (by simp [Call.isKeyPrefix])
  | orderByWriteTime ascending =>
      exact Call.writes_of rfl (fun _ _ => ⟨_, rfl, .writeTime ascending⟩)
        (List.forall_mem_singleton.mpr (.directionMark ascending)) (by simp [Call.isKeyPrefix])
  | limit number offset =>
      obtain ⟨hnumber, hoffset⟩ := hplain
      exact Call.writes_of rfl
        (fun _ _ => ⟨_, rfl, .limit (WritesCount.toString hnumber) (WritesCount.toString hoffset)⟩)
        (List.forall_mem_cons.mpr ⟨.count number, List.forall_mem_singleton.mpr (.count offset)⟩)
        (by simp [Call.isKeyPrefix])
  | keyPrefix pfx =>
      refine named_writes haccepted (fun ctx pfx => .keyPrefix (ctx.storedPrefix pfx))
        (fun _ _ => .keyPrefix) rfl ?_ (by simp [Call.isKeyPrefix])
      intro ctx
      rw [storedPrefix_eq]
      rfl
  | deviceId network => cases hnetwork
  | suggestIndex index =>
      exact named_writes haccepted (fun _ index => .suggestIndex index)
        (fun _ _ => .suggestIndex) rfl (fun _ => rfl) (by simp [Call.isKeyPrefix])
  | inKeys keys =>
      obtain ⟨heq, hne⟩ := inKeys_eq haccepted
      refine Call.writes_of (congrArg Builder.tokens heq) ?_
        (isArgument_marked (List.forall_mem_map.mpr fun key _ => .escape key))
        (by simp [Call.isKeyPrefix])
      intro c ctx
      have hreads : c.Reads ctx _ _ _ ctx := .inKeys (listEnd_notMem_keys keys) (by simpa using hne)
      rw [List.map_map] at hreads
      simp only [Function.comp_def, unescape_escape] at hreads
      exact ⟨_, rfl, hreads⟩
  | reset => exact absurd rfl hreset

end

end Builder

end PeerStore.Query
