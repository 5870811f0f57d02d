import Mathlib.Data.List.Forall2
import Mathlib.Data.List.Induction
import Mathlib.Data.List.TakeWhile
import PeerStore.Proofs.Query.Call

/-!
# Building and compiling are inverse

The text of a builder compiles to the query that its calls ask for
(**`Builder.text_compiles_to_calls`**): to the clauses of the calls in order, behind the scope.
First, calls are written as phrases that mean their clauses (`Written`); then the compiler cuts the
text into these phrases again, and nothing but a key prefix call puts a key prefix into the text.
-/

set_option autoImplicit false

namespace PeerStore.Query

namespace Builder

/-- The builder after some calls. -/
def build (calls : List Call) : Builder := calls.foldl Builder.call {}

/-- The calls since the last reset. -/
def sinceReset (calls : List Call) : List Call := (calls.reverse.takeWhile (· ≠ .reset)).reverse

/-- The network id of the scope: the last one that was given. -/
def scope? (calls : List Call) : Option String := (calls.filterMap Call.network?).getLast?

/-- How many clauses the text of some calls has. The scope is one, however often it was given. -/
def clauseCount (calls : List Call) : Nat :=
  (scope? calls).toList.length + calls.countP fun call => call.network?.isNone

/-- The clauses of a scope. The keys of its device are selected unless a call gives a key prefix. -/
def scopeClauses (device : String) (calls : List Call) : List Clause :=
  (if calls.any Call.isKeyPrefix then [] else [.keyPrefix (Blob.ofString device)]) ++
    [.deviceId device]

/-- The query that calls ask for when the scope is some device, or none. -/
def query (device : Option String) (calls : List Call) : Query :=
  device.toList.flatMap (scopeClauses · calls) ++ calls.filterMap (Call.clause? device)

/-! ## Resets -/

theorem sinceReset_append_of_ne {call : Call} (hcall : call ≠ .reset) (calls : List Call) :
    sinceReset (calls ++ [call]) = sinceReset calls ++ [call] := by
  simp [sinceReset, hcall]

theorem sinceReset_append_reset (calls : List Call) : sinceReset (calls ++ [.reset]) = [] := by
  simp [sinceReset]

theorem ne_reset_of_mem {calls : List Call} {call : Call} (h : call ∈ sinceReset calls) :
    call ≠ .reset := by
  have hne := List.mem_takeWhile_imp (List.mem_reverse.mp h)
  simpa using hne

/-- A reset forgets the calls before. -/
theorem build_sinceReset (calls : List Call) : build (sinceReset calls) = build calls := by
  induction calls using List.reverseRecOn with
  | nil => rfl
  | append_singleton calls call ih =>
      by_cases hcall : call = .reset
      · subst hcall
        rw [sinceReset_append_reset, build, build, List.foldl_append]
        rfl
      · rw [sinceReset_append_of_ne hcall]
        unfold build at ih ⊢
        rw [List.foldl_append, List.foldl_append, ih]

/-! ## Calls as phrases -/

/-- Whether phrases are how calls are written, the scope apart. -/
structure Written (calls : List Call) (phrases : List Phrase) : Prop where
  length : phrases.length = calls.countP fun call => call.network?.isNone
  denotes : ∀ (c : Compiler) (ctx : Context),
    c.Denotes ctx phrases (calls.filterMap (Call.clause? ctx.device))
  isArgument : ∀ p ∈ phrases, ∀ arg ∈ p.args, IsArgument arg
  keyPrefix : (∃ p ∈ phrases, p.keyword = .keyPrefix) ↔ calls.any Call.isKeyPrefix = true

theorem Written.nil : Written [] [] :=
  ⟨rfl, fun _ ctx => .nil ctx, by simp, by simp⟩

theorem Written.cons {call : Call} {p : Phrase} {calls : List Call} {phrases : List Phrase}
    (hcall : call.WrittenAs p) (hnetwork : call.network? = none) (h : Written calls phrases) :
    Written (call :: calls) (p :: phrases) where
  length := by
    rw [List.length_cons, h.length, List.countP_cons_of_pos (by simp [hnetwork])]
  denotes c ctx := by
    obtain ⟨clause, hclause, hreads⟩ := hcall.reads c ctx
    rw [List.filterMap_cons_some hclause]
    exact .cons hreads (h.denotes c ctx)
  isArgument := List.forall_mem_cons.mpr ⟨hcall.isArgument, h.isArgument⟩
  keyPrefix := by
    simp only [List.exists_mem_cons_iff, List.any_cons, Bool.or_eq_true, hcall.keyPrefix,
      h.keyPrefix]

theorem Written.scope {calls : List Call} {phrases : List Phrase} (network : String)
    (h : Written calls phrases) : Written (.deviceId network :: calls) phrases where
  length := h.length
  denotes := h.denotes
  isArgument := h.isArgument
  keyPrefix := h.keyPrefix

theorem scope?_cons (call : Call) (calls : List Call) :
    scope? (call :: calls) = (scope? calls).or call.network? := by
  unfold scope?
  cases hcall : call.network? with
  | none => rw [List.filterMap_cons_none hcall, Option.or_none]
  | some network =>
      rw [List.filterMap_cons_some hcall, List.getLast?_cons]
      cases (calls.filterMap Call.network?).getLast? <;> rfl

/-- **Accepted calls add phrases**, one for each call that is no scope, and each of them in the way
of the single call. -/
theorem foldl_phrases {adds : Call → Phrase → Prop} {b : Builder} {calls : List Call}
    (hadds : ∀ call ∈ calls, ∀ b : Builder, (b.call call).rejected = none → call.network? = none →
      ∃ p, (b.call call).tokens = b.tokens ++ p.tokens ∧ adds call p)
    (haccepted : (calls.foldl Builder.call b).rejected = none)
    (hreset : ∀ call ∈ calls, call ≠ .reset) :
    b.rejected = none ∧
    (calls.foldl Builder.call b).network = (scope? calls).or b.network ∧
    ∃ phrases, List.Forall₂ adds (calls.filter fun call => call.network?.isNone) phrases ∧
      (calls.foldl Builder.call b).tokens = b.tokens ++ phrases.flatMap Phrase.tokens := by
  induction calls generalizing b with
  | nil => exact ⟨haccepted, rfl, [], .nil, by simp⟩
  | cons call calls ih =>
      obtain ⟨hadds, haddsRest⟩ := List.forall_mem_cons.mp hadds
      obtain ⟨hreset, hresets⟩ := List.forall_mem_cons.mp hreset
      -- A rejection of this call would have been remembered to the end.
      obtain ⟨hcall, hnetwork, phrases, hphrases, htokens⟩ := ih haddsRest haccepted hresets
      obtain ⟨hb, hscope⟩ := call_rest hcall hreset
      refine ⟨hb, ?_, ?_⟩
      · rw [List.foldl_cons, hnetwork, hscope, scope?_cons, Option.or_assoc]
      · rw [List.foldl_cons, htokens]
        cases hcase : call.network? with
        | none =>
            obtain ⟨p, hp, hadded⟩ := hadds b hcall hcase
            refine ⟨p :: phrases, ?_, ?_⟩
            · rw [List.filter_cons_of_pos (by simp [hcase])]
              exact .cons hadded hphrases
            · rw [hp, List.flatMap_cons, List.append_assoc]
        | some network =>
            obtain rfl : call = .deviceId network := by
              cases call <;> cases hcase
              rfl
            refine ⟨phrases, hphrases, ?_⟩
            rw [call_deviceId_tokens]

theorem Written.of_phrases {calls : List Call} {phrases : List Phrase}
    (h : List.Forall₂ Call.WrittenAs (calls.filter fun call => call.network?.isNone) phrases) :
    Written calls phrases := by
  induction calls generalizing phrases with
  | nil =>
      cases h
      exact .nil
  | cons call calls ih =>
      cases hcase : call.network? with
      | none =>
          rw [List.filter_cons_of_pos (by simp [hcase])] at h
          cases h with
          | cons hcall h => exact (ih h).cons hcall hcase
      | some network =>
          obtain rfl : call = .deviceId network := by
            cases call <;> cases hcase
            rfl
          exact (ih h).scope network

/-- **Accepted calls are written as phrases that mean their clauses.** -/
theorem foldl_writes {b : Builder} {calls : List Call}
    (haccepted : (calls.foldl Builder.call b).rejected = none)
    (hplain : ∀ call ∈ calls, call.Plain) (hreset : ∀ call ∈ calls, call ≠ .reset) :
    b.rejected = none ∧
    (calls.foldl Builder.call b).network = (scope? calls).or b.network ∧
    ∃ phrases, Written calls phrases ∧
      (calls.foldl Builder.call b).tokens = b.tokens ++ phrases.flatMap Phrase.tokens := by
  obtain ⟨hb, hnetwork, phrases, hphrases, htokens⟩ := foldl_phrases
    (fun call hcall b haccepted hnetwork =>
      call_writes haccepted (hplain call hcall) hnetwork (hreset call hcall)) haccepted hreset
  exact ⟨hb, hnetwork, phrases, .of_phrases hphrases, htokens⟩

/-! ## Texts -/

/-- The phrase of a scope. -/
def scopePhrase (network : String) : Phrase := ⟨.deviceId, [escape network], .fixed rfl⟩

theorem allTokens_eq {b : Builder} {phrases : List Phrase}
    (h : b.tokens = phrases.flatMap Phrase.tokens) :
    b.allTokens = (b.network.toList.map scopePhrase ++ phrases).flatMap Phrase.tokens := by
  rw [List.flatMap_append, ← h]
  unfold allTokens
  cases b.network <;> rfl

theorem isArgument_scoped {phrases : List Phrase}
    (h : ∀ p ∈ phrases, ∀ arg ∈ p.args, IsArgument arg) (network : Option String) :
    ∀ p ∈ network.toList.map scopePhrase ++ phrases, ∀ arg ∈ p.args, IsArgument arg :=
  List.forall_mem_append.mpr ⟨List.forall_mem_map.mpr fun network _ =>
    List.forall_mem_singleton.mpr (.escape network), h⟩

theorem Written.isArgument_scoped {calls : List Call} {phrases : List Phrase}
    (h : Written calls phrases) (network : Option String) :
    ∀ p ∈ network.toList.map scopePhrase ++ phrases, ∀ arg ∈ p.args, IsArgument arg :=
  Builder.isArgument_scoped h.isArgument network

theorem isToken_of_isArgument {phrases : List Phrase}
    (h : ∀ p ∈ phrases, ∀ arg ∈ p.args, IsArgument arg) :
    ∀ token ∈ phrases.flatMap Phrase.tokens, IsToken token := by
  intro token htoken
  obtain ⟨p, hp, htoken⟩ := List.mem_flatMap.mp htoken
  rcases List.mem_cons.mp htoken with rfl | harg
  · exact .keyword p.keyword
  · exact (h p hp token harg).toIsToken

/-- Only the keyword of a phrase is taken for a key prefix clause. -/
theorem keyPrefix_mem_iff {phrases : List Phrase}
    (h : ∀ p ∈ phrases, ∀ arg ∈ p.args, IsArgument arg) :
    Keyword.keyPrefix.text ∈ phrases.flatMap Phrase.tokens ↔
      ∃ p ∈ phrases, p.keyword = .keyPrefix := by
  rw [List.mem_flatMap]
  constructor
  · rintro ⟨p, hp, htoken⟩
    rcases List.mem_cons.mp htoken with hkeyword | harg
    · exact ⟨p, hp, (Keyword.text_injective hkeyword).symm⟩
    · exact absurd rfl (h p hp _ harg).ne_keyPrefix
  · rintro ⟨p, hp, hkeyword⟩
    exact ⟨p, hp, List.mem_cons.mpr (.inl (by rw [hkeyword]))⟩

/-- Behind a scope, calls put a key prefix into the tokens exactly if one of them asks for it. -/
theorem Written.contains_keyPrefix {calls : List Call} {phrases : List Phrase}
    (h : Written calls phrases) (network : Option String) :
    ((network.toList.map scopePhrase ++ phrases).flatMap Phrase.tokens).contains
      Keyword.keyPrefix.text = calls.any Call.isKeyPrefix := by
  have hscope : ∀ p ∈ network.toList.map scopePhrase, p.keyword ≠ .keyPrefix :=
    List.forall_mem_map.mpr fun _ _ => by simp [scopePhrase]
  rw [Bool.eq_iff_iff, List.contains_iff_mem, keyPrefix_mem_iff (h.isArgument_scoped network),
    ← h.keyPrefix]
  constructor
  · rintro ⟨p, hp, hkeyword⟩
    rcases List.mem_append.mp hp with hp | hp
    · exact absurd hkeyword (hscope p hp)
    · exact ⟨p, hp, hkeyword⟩
  · rintro ⟨p, hp, hkeyword⟩
    exact ⟨p, List.mem_append.mpr (.inr hp), hkeyword⟩

/-- What is written behind the scope means the clauses of the calls, whatever the scope is. -/
theorem Written.denotes_scoped {calls : List Call} {phrases : List Phrase}
    (h : Written calls phrases) (c : Compiler) (ctx : Context) (hdevice : ctx.device = none)
    (hkeyPrefix : ctx.hasKeyPrefix = calls.any Call.isKeyPrefix) {network : Option String}
    (hnetwork : ∀ n, network = some n → (c.resolve? n).isSome = true) :
    c.Denotes ctx (network.toList.map scopePhrase ++ phrases)
      (query (network.bind c.resolve?) calls) := by
  cases network with
  | none =>
      have hphrases := h.denotes c ctx
      rw [hdevice] at hphrases
      exact hphrases
  | some network =>
      -- The scope comes first, so that all key prefixes are read with its device in the context.
      obtain ⟨device, hresolve⟩ := Option.isSome_iff_exists.mp (hnetwork network rfl)
      have hscope : c.Reads ctx .deviceId [escape network] _ _ :=
        .deviceId (by rw [unescape_escape]; exact hresolve)
      have hquery : query (c.resolve? network) calls =
          scopeClauses device calls ++ calls.filterMap (Call.clause? (some device)) := by
        simp [query, hresolve]
      rw [hkeyPrefix] at hscope
      show c.Denotes ctx (scopePhrase network :: phrases) (query (c.resolve? network) calls)
      rw [hquery]
      exact .cons hscope (h.denotes c _)

/-- **Building and compiling are inverse.** Calls of which none is rejected, without doubles and
with numbers of results in range, have a text, and it compiles to the query that they ask for. Only
the calls since the last reset count. -/
theorem text_compiles_to_calls (c : Compiler) (calls : List Call) (hlimits : c.limits = {})
    (haccepted : (build calls).rejected = none)
    (hplain : ∀ call ∈ sinceReset calls, call.Plain)
    (hcount : clauseCount (sinceReset calls) ≤ 500)
    (hbytes : (render (build calls).allTokens).utf8ByteSize ≤ 5120)
    (hscope : ∀ network, scope? (sinceReset calls) = some network →
      (c.resolve? network).isSome = true) :
    ∃ text, (build calls).text? = .ok text ∧ c.compile? text =
      .ok (query ((scope? (sinceReset calls)).bind c.resolve?) (sinceReset calls)) := by
  refine ⟨render (build calls).allTokens, ?_, ?_⟩
  · simp only [text?, haccepted]
    exact if_neg (Nat.not_lt_of_le hbytes)
  · obtain ⟨-, hnetwork, phrases, hwritten, htokens⟩ := foldl_writes (b := {})
      (by rw [← build, build_sinceReset]; exact haccepted) hplain fun _ => ne_reset_of_mem
    rw [← build, build_sinceReset] at hnetwork htokens
    rw [Option.or_none] at hnetwork
    -- The tokens that were rendered are phrases, that of the scope first, and the text is cut into
    -- them again.
    have hall := allTokens_eq htokens
    rw [hnetwork] at hall
    have htokenize : tokenize (render (build calls).allTokens) = (build calls).allTokens := by
      rw [hall]
      exact tokenize_render (isToken_of_isArgument (hwritten.isArgument_scoped _))
    rw [Compiler.compile?_eq_ok_iff]
    refine ⟨by rw [hlimits]; exact hbytes, _, htokenize.trans hall, ?_, ?_⟩
    · rw [hlimits, List.length_append, List.length_map, hwritten.length]
      exact hcount
    · refine hwritten.denotes_scoped c _ rfl ?_ hscope
      rw [Context.ofText, htokenize, hall]
      exact hwritten.contains_keyPrefix _

/-- Literals that look like marks and keywords, an empty one, spaces and parentheses, a scope that
comes last, and a rejected call that a reset forgets. -/
theorem text_compiles_to_calls_with_marks :
    let c : Compiler := { directory := some (Directory.register { self := "me" } "my (phone)" "d1") }
    let calls : List Call :=
      [.isNull "", .reset, .oneOf "a b" (.strs ["", "^END", "^KEY_PREFIX", "(^) ^^"]), .and,
        .compare .less "n" (.int (-2147483648)), .keyPrefix "user ", .inKeys ["b", "a ( b"],
        .limit 2147483647 0, .deviceId "my (phone)"]
    ∃ text, (build calls).text? = .ok text ∧ c.compile? text = .ok
      [.deviceId "d1", .part (.test (.oneOf "a b"
          [.str "", .str "^END", .str "^KEY_PREFIX", .str "(^) ^^"])), .part .and,
        .part (.test (.compare .less "n" (.int (-2147483648)))),
        .keyPrefix (Blob.ofString "d1user "),
        .inKeys (KeySet.ofList [Blob.ofString "a ( b", Blob.ofString "b"]),
        .limit 2147483647 0] := by
  intro c calls
  have hsince : sinceReset calls = calls.drop 2 := by decide +kernel
  have hplain : ∀ call ∈ sinceReset calls, call.Plain := by
    rw [hsince]
    simp [calls, Call.Plain, Literals.toList, Literal.type]
  have hscope : ∀ network, scope? (sinceReset calls) = some network →
      (c.resolve? network).isSome = true := by
    intro network hnetwork
    have hphone : scope? (sinceReset calls) = some "my (phone)" := by decide +kernel
    obtain rfl := Option.some.inj (hphone.symm.trans hnetwork)
    decide +kernel
  obtain ⟨text, htext, hcompile⟩ := text_compiles_to_calls c calls rfl (by decide +kernel) hplain
    (by decide +kernel) (by decide +kernel) hscope
  refine ⟨text, htext, hcompile.trans (congrArg Except.ok ?_)⟩
  decide +kernel

end Builder

end PeerStore.Query
