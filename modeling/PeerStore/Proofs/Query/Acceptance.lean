import PeerStore.Proofs.Query.RoundTrip

/-!
# Texts of builders that the compiler accepts

A builder and the compiler set their limits apart from each other. The builder renders any number of
clauses, and limits of any size; the compiler takes 500 clauses at most, and numbers of 32 bits with
a sign. **`Builder.text_compiles_iff`** says that nothing else keeps a text of a builder from
compiling: doubles are read as they are written, and whatever else a call accepts has a meaning.
-/

set_option autoImplicit false

namespace PeerStore.Query

/-! ## Phrases with a meaning -/

namespace Compiler

variable {c : Compiler}

/-- Whether a phrase means anything. -/
def Readable (c : Compiler) (p : Phrase) : Prop :=
  ∃ ctx clauses ctx', c.Reads ctx p.keyword p.args clauses ctx'

/-- Whether arguments mean anything does not depend on the context. -/
theorem Reads.exists_of_context {ctx ctx' : Context} {kw : Keyword} {args : List String}
    {clauses : List Clause} (h : c.Reads ctx kw args clauses ctx') (other : Context) :
    ∃ clauses other', c.Reads other kw args clauses other' := by
  cases h with
  | compare op name hbool hv => exact ⟨_, _, .compare op name hbool hv⟩
  | oneOf name hend hbool hvalues => exact ⟨_, _, .oneOf name hend hbool hvalues⟩
  | noneOf name hend hbool hvalues => exact ⟨_, _, .noneOf name hend hbool hvalues⟩
  | like name text => exact ⟨_, _, .like name text⟩
  | notLike name text => exact ⟨_, _, .notLike name text⟩
  | isNull name => exact ⟨_, _, .isNull name⟩
  | isNotNull name => exact ⟨_, _, .isNotNull name⟩
  | and => exact ⟨_, _, .and⟩
  | or => exact ⟨_, _, .or⟩
  | beginGroup => exact ⟨_, _, .beginGroup⟩
  | endGroup => exact ⟨_, _, .endGroup⟩
  | ascending name => exact ⟨_, _, .ascending name⟩
  | descending name => exact ⟨_, _, .descending name⟩
  | writeTime ascending => exact ⟨_, _, .writeTime ascending⟩
  | limit hn ho => exact ⟨_, _, .limit hn ho⟩
  | keyPrefix pfx => exact ⟨_, _, .keyPrefix pfx⟩
  | inKeys hend hne => exact ⟨_, _, .inKeys hend hne⟩
  | suggestIndex index => exact ⟨_, _, .suggestIndex index⟩
  | deviceId hdevice => exact ⟨_, _, .deviceId hdevice⟩

theorem Reads.limit_inv {ctx ctx' : Context} {number offset : String} {clauses : List Clause}
    (h : c.Reads ctx .limit [number, offset] clauses ctx') :
    ∃ n o, WritesCount number n ∧ WritesCount offset o := by
  generalize hkw : Keyword.limit = kw, hargs : [number, offset] = args at h
  cases h with
  | compare op => cases op <;> cases hkw
  | limit hn ho =>
      cases hargs
      exact ⟨_, _, hn, ho⟩
  | _ => cases hkw

/-- Phrases mean a query exactly if each of them means something. -/
theorem exists_denotes_iff {phrases : List Phrase} (ctx : Context) :
    (∃ q, c.Denotes ctx phrases q) ↔ ∀ p ∈ phrases, c.Readable p := by
  induction phrases generalizing ctx with
  | nil => exact ⟨fun _ => by simp, fun _ => ⟨[], .nil ctx⟩⟩
  | cons p phrases ih =>
      rw [List.forall_mem_cons]
      constructor
      · rintro ⟨q, h⟩
        cases h with
        | cons hreads hdenotes => exact ⟨⟨_, _, _, hreads⟩, (ih _).mp ⟨_, hdenotes⟩⟩
      · rintro ⟨⟨other, clauses, other', hreads⟩, hphrases⟩
        obtain ⟨clauses, ctx', hreads⟩ := hreads.exists_of_context ctx
        obtain ⟨more, hdenotes⟩ := (ih ctx').mpr hphrases
        exact ⟨clauses ++ more, .cons hreads hdenotes⟩

/-- **A text that is short enough compiles exactly if its phrases are not too many, and each of them
means something.** -/
theorem success_iff {text : String} {phrases : List Phrase}
    (hsplit : Phrase.Split (tokenize text) phrases)
    (hbytes : text.utf8ByteSize ≤ c.limits.queryBytes) :
    (c.compile text).success = true ↔
      phrases.length ≤ c.limits.queryClauses ∧ ∀ p ∈ phrases, c.Readable p := by
  have hok : (c.compile text).success = true ↔ ∃ q, c.compile? text = .ok q := by
    unfold compile
    cases c.compile? text <;> simp [Outcome.success]
  rw [hok, ← exists_denotes_iff (Context.ofText text)]
  constructor
  · rintro ⟨q, hq⟩
    obtain ⟨-, phrases', hsplit', hlength, hdenotes⟩ := compile?_eq_ok_iff.mp hq
    obtain rfl := Phrase.split_unique hsplit hsplit'
    exact ⟨hlength, q, hdenotes⟩
  · rintro ⟨hlength, q, hdenotes⟩
    exact ⟨q, compile?_eq_ok_iff.mpr ⟨hbytes, phrases, hsplit, hlength, hdenotes⟩⟩

end Compiler

namespace Builder

/-! ## Phrases of calls -/

/-- Whether a call has no number of results that is out of range. -/
def Call.InRange : Call → Prop
  | .limit number offset => number ≤ 2147483647 ∧ offset ≤ 2147483647
  | _ => True

/-- Whether a phrase is what a call adds, with a meaning or without one. -/
structure Call.AddedAs (call : Call) (p : Phrase) : Prop where
  isArgument : ∀ arg ∈ p.args, IsArgument arg
  readable_iff : ∀ c : Compiler, c.Readable p ↔ call.InRange

theorem Call.WrittenAs.addedAs {call : Call} {p : Phrase} (h : call.WrittenAs p)
    (hrange : call.InRange) : call.AddedAs p where
  isArgument := h.isArgument
  readable_iff c := by
    obtain ⟨clause, -, hreads⟩ := h.reads c ⟨false, none⟩
    exact iff_of_true ⟨_, _, _, hreads⟩ hrange

/-- A number of results is read exactly if it has the width. -/
theorem exists_writesCount_iff {n : Nat} : (∃ m, WritesCount (toString n) m) ↔ n ≤ 2147483647 := by
  constructor
  · rintro ⟨m, hwrites, hle⟩
    rwa [Int.ofNat_inj.mp ((Decimal.Writes.toString_nat n).unique hwrites)]
  · intro hle
    exact ⟨n, .toString hle⟩

section

variable {b : Builder} {call : Call} {kw : Keyword}

/-- Calls with a list of literals, of any type. -/
theorem list_adds {field : String} {values : Literals}
    (haccepted : (b.list kw field values).rejected = none) (test : String → List Literal → Predicate)
    (hreads : ∀ (c : Compiler) ctx {type : FieldType} {tokens : List String}
      {values : List Literal} (name : String), listEnd ∉ tokens → type ≠ .bool →
      List.Forall₂ (Literal.Written type) tokens values →
      c.Reads ctx kw (type.tag :: name :: listStart :: (tokens ++ [listEnd]))
        [.part (.test (test (unescape name) values))] ctx)
    (hcall : b.call call = b.list kw field values) (hrange : call.InRange) :
    ∃ p : Phrase, (b.call call).tokens = b.tokens ++ p.tokens ∧ call.AddedAs p := by
  obtain ⟨heq, hbool⟩ := list_eq haccepted
  obtain ⟨literals, hwritten⟩ := values.exists_written
  have hread (c : Compiler) (ctx : Context) :=
    hreads c ctx (escape field) (listEnd_notMem_tokens values) hbool hwritten
  refine ⟨⟨kw, _, (hread {} ⟨false, none⟩).fits⟩, congrArg Builder.tokens (hcall.trans heq), ?_,
    fun c => iff_of_true ⟨_, _, _, hread c ⟨false, none⟩⟩ hrange⟩
  have htokens : ∀ token ∈ values.toList.map Literal.token, IsArgument token :=
    List.forall_mem_map.mpr fun v _ => .token v
  exact List.forall_mem_cons.mpr ⟨.tag _,
    List.forall_mem_cons.mpr ⟨.escape field, isArgument_marked htokens⟩⟩

/-- **An accepted call adds one phrase, and it has a meaning exactly if the call is in range.** -/
theorem call_adds (haccepted : (b.call call).rejected = none) (hnetwork : call.network? = none)
    (hreset : call ≠ .reset) :
    ∃ p : Phrase, (b.call call).tokens = b.tokens ++ p.tokens ∧ call.AddedAs p := by
  by_cases hplain : call.Plain
  · obtain ⟨p, htokens, hp⟩ := call_writes haccepted hplain hnetwork hreset
    refine ⟨p, htokens, hp.addedAs ?_⟩
    cases call with
    | limit number offset => exact hplain
    | _ => trivial
  -- Doubles are left, which are read as some doubles, and numbers of results out of range.
  cases call with
  | compare op field value =>
      obtain ⟨heq, hbool⟩ := compare_eq haccepted
      obtain ⟨v, hv⟩ := value.exists_written
      have hread (c : Compiler) (ctx : Context) : c.Reads ctx _ _ _ ctx :=
        .compare op (escape field) hbool hv
      exact ⟨⟨_, _, (hread {} ⟨false, none⟩).fits⟩, congrArg Builder.tokens heq,
        by simp [IsArgument.tag, IsArgument.escape, IsArgument.token],
        fun c => iff_of_true ⟨_, _, _, hread c ⟨false, none⟩⟩ trivial⟩
  | oneOf field values => exact list_adds haccepted .oneOf (fun _ _ => .oneOf) rfl trivial
  | noneOf field values => exact list_adds haccepted .noneOf (fun _ _ => .noneOf) rfl trivial
  | limit number offset =>
      refine ⟨⟨.limit, [toString number, toString offset], .fixed rfl⟩, rfl,
        List.forall_mem_cons.mpr ⟨.count number, List.forall_mem_singleton.mpr (.count offset)⟩,
        fun c => ⟨?_, fun hrange => absurd hrange hplain⟩⟩
      rintro ⟨ctx, clauses, ctx', hreads⟩
      obtain ⟨n, o, hn, ho⟩ := hreads.limit_inv
      exact ⟨exists_writesCount_iff.mp ⟨n, hn⟩, exists_writesCount_iff.mp ⟨o, ho⟩⟩
  | _ => exact absurd trivial hplain

end

/-! ## Texts -/

theorem text?_eq_ok_iff {b : Builder} {text : String} :
    b.text? = .ok text ↔ b.rejected = none ∧ (render b.allTokens).utf8ByteSize ≤ maxTextBytes ∧
      text = render b.allTokens := by
  unfold text?
  cases b.rejected with
  | some why => simp
  | none =>
      dsimp only
      constructor
      · intro h
        split at h
        · cases h
        · cases h
          exact ⟨rfl, Nat.le_of_not_lt ‹_›, rfl⟩
      · rintro ⟨-, hbytes, rfl⟩
        exact if_neg (Nat.not_lt_of_le hbytes)

/-- Phrases that calls add are in the form that the text is cut into again. -/
theorem isArgument_of_added {calls : List Call} {phrases : List Phrase}
    (h : List.Forall₂ Call.AddedAs calls phrases) : ∀ p ∈ phrases, ∀ arg ∈ p.args, IsArgument arg := by
  induction h with
  | nil => simp
  | cons hadded _ ih => exact List.forall_mem_cons.mpr ⟨hadded.isArgument, ih⟩

theorem readable_iff_of_added (c : Compiler) {calls : List Call} {phrases : List Phrase}
    (h : List.Forall₂ Call.AddedAs calls phrases) :
    (∀ p ∈ phrases, c.Readable p) ↔ ∀ call ∈ calls, call.InRange := by
  induction h with
  | nil => simp
  | cons hadded _ ih => rw [List.forall_mem_cons, List.forall_mem_cons, hadded.readable_iff, ih]

theorem inRange_filter {calls : List Call} :
    (∀ call ∈ calls.filter fun call => call.network?.isNone, call.InRange) ↔
      ∀ call ∈ calls, call.InRange := by
  constructor
  · intro h call hcall
    cases call with
    | deviceId network => trivial
    | _ => exact h _ (List.mem_filter.mpr ⟨hcall, rfl⟩)
  · intro h call hcall
    exact h call (List.mem_of_mem_filter hcall)

/-- **What keeps a text of a builder from compiling.** Let a builder have a text, and let its scope
resolve, if it has one. The text compiles if and only if it has at most 500 clauses and no number of
results that is out of range. Only the calls since the last reset count. -/
theorem text_compiles_iff (c : Compiler) (calls : List Call) (hlimits : c.limits = {}) {text : String}
    (htext : (build calls).text? = .ok text)
    (hscope : ∀ network, scope? (sinceReset calls) = some network →
      (c.resolve? network).isSome = true) :
    (c.compile text).success = true ↔
      clauseCount (sinceReset calls) ≤ 500 ∧ ∀ call ∈ sinceReset calls, call.InRange := by
  obtain ⟨haccepted, hbytes, rfl⟩ := text?_eq_ok_iff.mp htext
  obtain ⟨-, hnetwork, phrases, hadded, htokens⟩ := foldl_phrases (b := {})
    (fun call hcall b haccepted hnetwork => call_adds haccepted hnetwork (ne_reset_of_mem hcall))
    (by rw [← build, build_sinceReset]; exact haccepted) fun _ => ne_reset_of_mem
  rw [← build, build_sinceReset] at hnetwork htokens
  rw [Option.or_none] at hnetwork
  -- The text is cut into the phrases of the calls again, that of the scope first.
  have hall := allTokens_eq htokens
  rw [hnetwork] at hall
  have htokenize : tokenize (render (build calls).allTokens) = (build calls).allTokens := by
    rw [hall]
    exact tokenize_render (isToken_of_isArgument (isArgument_scoped (isArgument_of_added hadded) _))
  have hscopeReadable : ∀ p ∈ (scope? (sinceReset calls)).toList.map scopePhrase, c.Readable p := by
    refine List.forall_mem_map.mpr fun network hmem => ?_
    obtain ⟨device, hdevice⟩ :=
      Option.isSome_iff_exists.mp (hscope network (Option.mem_toList.mp hmem))
    exact ⟨⟨false, none⟩, _, _, .deviceId (by rw [unescape_escape]; exact hdevice)⟩
  rw [Compiler.success_iff (htokenize.trans hall) (by rw [hlimits]; exact hbytes), hlimits,
    List.forall_mem_append, and_iff_right hscopeReadable, readable_iff_of_added c hadded,
    inRange_filter, List.length_append, List.length_map, ← hadded.length_eq,
    ← List.countP_eq_length_filter]
  rfl

/-- Doubles of all kinds, a list of them, a scope that comes last, and the largest limit. -/
theorem text_compiles_iff_with_doubles :
    let c : Compiler := { directory := some (Directory.register { self := "me" } "phone" "d1") }
    let calls : List Call :=
      [.compare .less "x" (.double (Double.infinity true)), .or,
        .oneOf "x y" (.doubles [Double.nan, Double.zero]),
        .limit 2147483647 2147483647, .deviceId "phone"]
    ∃ text, (build calls).text? = .ok text ∧ (c.compile text).success = true := by
  intro c calls
  have hsince : sinceReset calls = calls := by decide +kernel
  have htext : (build calls).text? = .ok (render (build calls).allTokens) :=
    text?_eq_ok_iff.mpr ⟨by decide +kernel, by decide +kernel, rfl⟩
  have hscope : ∀ network, scope? (sinceReset calls) = some network →
      (c.resolve? network).isSome = true := by
    intro network hnetwork
    have hphone : scope? (sinceReset calls) = some "phone" := by decide +kernel
    obtain rfl := Option.some.inj (hphone.symm.trans hnetwork)
    decide +kernel
  have hrange : ∀ call ∈ sinceReset calls, call.InRange := by
    rw [hsince]
    simp [calls, Call.InRange]
  exact ⟨_, htext, (text_compiles_iff c calls rfl htext hscope).mpr ⟨by decide +kernel, hrange⟩⟩

/-- A limit of 32 bits without a sign is rendered, and the compiler refuses the text, which has no
scope to resolve. -/
theorem text_of_long_limit_refused :
    let c : Compiler := {}
    let calls : List Call := [.limit 2147483648 0]
    scope? (sinceReset calls) = none ∧
      ∃ text, (build calls).text? = .ok text ∧ (c.compile text).success = false :=
  ⟨rfl, " ^LIMIT 2147483648 0", by decide +kernel, by decide +kernel⟩

end Builder

end PeerStore.Query
