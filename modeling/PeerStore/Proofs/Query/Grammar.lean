import PeerStore.Proofs.Query.Reader

/-!
# The grammar of query text

What query text means is said here without a reader: `Compiler.Reads` relates the arguments of a
keyword to its clauses, `Compiler.Denotes` a list of phrases to their clauses in order, and
`Compiler.Accepts` a text to its query. The compiler takes exactly what these relations allow: one
clause (`takeClause_eq_ok_iff`), all that is left of a text (`takeClauses_eq_ok_iff`), and a text
(**`compiles_exactly_grammar`**).
-/

set_option autoImplicit false

namespace PeerStore.Query

/-! ## Clauses -/

namespace Compiler

/-- What the arguments of a keyword mean: its clauses, and the context behind them. Only a device
clause can make two. -/
inductive Reads (c : Compiler) (ctx : Context) :
    Keyword → List String → List Clause → Context → Prop where
  | compare (op : CompareOp) {type : FieldType} {token : String} {v : Literal} (name : String) :
      ¬(op.isOrdering = true ∧ type = .bool) → Literal.Written type token v →
      Reads c ctx op.keyword [type.tag, name, token] [.part (.test (.compare op (unescape name) v))]
        ctx
  | oneOf {type : FieldType} {tokens : List String} {values : List Literal} (name : String) :
      listEnd ∉ tokens → type ≠ .bool → List.Forall₂ (Literal.Written type) tokens values →
      Reads c ctx .oneOf (type.tag :: name :: listStart :: (tokens ++ [listEnd]))
        [.part (.test (.oneOf (unescape name) values))] ctx
  | noneOf {type : FieldType} {tokens : List String} {values : List Literal} (name : String) :
      listEnd ∉ tokens → type ≠ .bool → List.Forall₂ (Literal.Written type) tokens values →
      Reads c ctx .noneOf (type.tag :: name :: listStart :: (tokens ++ [listEnd]))
        [.part (.test (.noneOf (unescape name) values))] ctx
  | like (name text : String) :
      Reads c ctx .like [name, text] [.part (.test (.like (unescape name) (unescape text)))] ctx
  | notLike (name text : String) :
      Reads c ctx .notLike [name, text] [.part (.test (.notLike (unescape name) (unescape text)))]
        ctx
  | isNull (name : String) :
      Reads c ctx .isNull [name] [.part (.test (.isNull (unescape name)))] ctx
  | isNotNull (name : String) :
      Reads c ctx .isNotNull [name] [.part (.test (.isNotNull (unescape name)))] ctx
  | and : Reads c ctx .and [] [.part .and] ctx
  | or : Reads c ctx .or [] [.part .or] ctx
  | beginGroup : Reads c ctx .beginGroup [] [.part .beginGroup] ctx
  | endGroup : Reads c ctx .endGroup [] [.part .endGroup] ctx
  | ascending (name : String) : Reads c ctx .ascending [name] [.orderBy (unescape name) true] ctx
  | descending (name : String) : Reads c ctx .descending [name] [.orderBy (unescape name) false] ctx
  | writeTime (ascending : Bool) :
      Reads c ctx .writeTime [directionMark ascending] [.orderByWriteTime ascending] ctx
  | limit {number offset : String} {n o : Nat} : WritesCount number n → WritesCount offset o →
      Reads c ctx .limit [number, offset] [.limit n o] ctx
  | keyPrefix (pfx : String) :
      Reads c ctx .keyPrefix [pfx] [.keyPrefix (ctx.storedPrefix (unescape pfx))] ctx
  | inKeys {names : List String} : listEnd ∉ names → names ≠ [] →
      Reads c ctx .inKeys (listStart :: (names ++ [listEnd]))
        [.inKeys (KeySet.ofList (names.map fun name => Blob.ofString (unescape name)))] ctx
  | suggestIndex (index : String) :
      Reads c ctx .suggestIndex [index] [.suggestIndex (unescape index)] ctx
  | deviceId {network device : String} : c.resolve? (unescape network) = some device →
      Reads c ctx .deviceId [network]
        ((if ctx.hasKeyPrefix then [] else [.keyPrefix (Blob.ofString device)]) ++
          [.deviceId device])
        { ctx with device := some device }

section

variable {c : Compiler} {ctx ctx' : Context} {kw : Keyword} {args : List String}
  {clauses : List Clause}

/-- Arguments that mean something have the shape that their keyword asks for. -/
theorem Reads.fits (h : c.Reads ctx kw args clauses ctx') : kw.shape.Fits args := by
  cases h with
  | compare op => cases op <;> exact .fixed rfl
  | oneOf name hend => exact .valueList _ name hend
  | noneOf name hend => exact .valueList _ name hend
  | inKeys hend hne => exact .keyList hne hend
  | _ => exact .fixed rfl

/-! ### What is taken means something -/

variable {ts ts' : Tokens}

theorem reads_of_takeComparison {op : CompareOp}
    (h : (takeComparison op ts >>= fun r => .ok ([.part (.test r.1)], ctx, r.2)) =
      Except.ok (clauses, ctx', ts')) :
    ∃ args, ts.Took args ts' ∧ c.Reads ctx op.keyword args clauses ctx' := by
  obtain ⟨⟨p, ts₁⟩, htake, h⟩ := bind_eq_ok_iff.mp h
  cases h
  obtain ⟨type, name, token, v, htook, hbool, hv, rfl⟩ := takeComparison_eq_ok_iff.mp htake
  exact ⟨_, htook, .compare op name hbool hv⟩

theorem reads_of_takeText (clause : String → Clause)
    (hreads : ∀ name, c.Reads ctx kw [name] [clause (unescape name)] ctx)
    (h : (takeText kw ts >>= fun r => .ok ([clause r.1], ctx, r.2)) =
      Except.ok (clauses, ctx', ts')) :
    ∃ args, ts.Took args ts' ∧ c.Reads ctx kw args clauses ctx' := by
  obtain ⟨⟨text, ts₁⟩, htake, h⟩ := bind_eq_ok_iff.mp h
  cases h
  obtain ⟨name, htook, rfl⟩ := takeText_eq_ok_iff.mp htake
  exact ⟨_, htook, hreads name⟩

theorem reads_of_takeFieldAndPattern (test : String → String → Predicate)
    (hreads : ∀ name text, c.Reads ctx kw [name, text]
      [.part (.test (test (unescape name) (unescape text)))] ctx)
    (h : (takeFieldAndPattern kw ts >>= fun r => .ok ([.part (.test (test r.1 r.2.1))], ctx, r.2.2)) =
      Except.ok (clauses, ctx', ts')) :
    ∃ args, ts.Took args ts' ∧ c.Reads ctx kw args clauses ctx' := by
  obtain ⟨⟨field, pattern, ts₁⟩, htake, h⟩ := bind_eq_ok_iff.mp h
  cases h
  obtain ⟨name, text, htook, rfl, rfl⟩ := takeFieldAndPattern_eq_ok_iff.mp htake
  exact ⟨_, htook, hreads name text⟩

theorem reads_of_takeValueList (test : String → List Literal → Predicate)
    (hreads : ∀ {type : FieldType} {tokens : List String} {values : List Literal} (name : String),
      listEnd ∉ tokens → type ≠ .bool → List.Forall₂ (Literal.Written type) tokens values →
      c.Reads ctx kw (type.tag :: name :: listStart :: (tokens ++ [listEnd]))
        [.part (.test (test (unescape name) values))] ctx)
    (h : (takeValueList kw ts >>= fun r => .ok ([.part (.test (test r.1 r.2.1))], ctx, r.2.2)) =
      Except.ok (clauses, ctx', ts')) :
    ∃ args, ts.Took args ts' ∧ c.Reads ctx kw args clauses ctx' := by
  obtain ⟨⟨field, values, ts₁⟩, htake, h⟩ := bind_eq_ok_iff.mp h
  cases h
  obtain ⟨type, name, tokens, htook, hend, hbool, hvalues, rfl⟩ :=
    takeValueList_eq_ok_iff.mp htake
  exact ⟨_, htook, hreads name hend hbool hvalues⟩

theorem reads_of_takeClause (h : c.takeClause ctx kw ts = .ok (clauses, ctx', ts')) :
    ∃ args, ts.Took args ts' ∧ c.Reads ctx kw args clauses ctx' := by
  cases kw with
  | equal => exact reads_of_takeComparison h
  | notEqual => exact reads_of_takeComparison h
  | greater => exact reads_of_takeComparison h
  | less => exact reads_of_takeComparison h
  | greaterOrEqual => exact reads_of_takeComparison h
  | lessOrEqual => exact reads_of_takeComparison h
  | isNull => exact reads_of_takeText (fun field => .part (.test (.isNull field))) .isNull h
  | isNotNull => exact reads_of_takeText (fun field => .part (.test (.isNotNull field))) .isNotNull h
  | oneOf => exact reads_of_takeValueList .oneOf .oneOf h
  | noneOf => exact reads_of_takeValueList .noneOf .noneOf h
  | like => exact reads_of_takeFieldAndPattern .like .like h
  | notLike => exact reads_of_takeFieldAndPattern .notLike .notLike h
  | and =>
      cases h
      exact ⟨[], Tokens.took_nil.mpr rfl, .and⟩
  | or =>
      cases h
      exact ⟨[], Tokens.took_nil.mpr rfl, .or⟩
  | beginGroup =>
      cases h
      exact ⟨[], Tokens.took_nil.mpr rfl, .beginGroup⟩
  | endGroup =>
      cases h
      exact ⟨[], Tokens.took_nil.mpr rfl, .endGroup⟩
  | ascending => exact reads_of_takeText (fun field => .orderBy field true) .ascending h
  | descending => exact reads_of_takeText (fun field => .orderBy field false) .descending h
  | writeTime =>
      obtain ⟨⟨ascending, ts₁⟩, htake, h⟩ := bind_eq_ok_iff.mp h
      cases h
      exact ⟨_, takeDirection_eq_ok_iff.mp htake, .writeTime ascending⟩
  | limit =>
      obtain ⟨⟨clause, ts₁⟩, htake, h⟩ := bind_eq_ok_iff.mp h
      cases h
      obtain ⟨number, offset, n, o, htook, hn, ho, rfl⟩ := takeLimit_eq_ok_iff.mp htake
      exact ⟨_, htook, .limit hn ho⟩
  | keyPrefix => exact reads_of_takeText (fun pfx => .keyPrefix (ctx.storedPrefix pfx)) .keyPrefix h
  | inKeys =>
      obtain ⟨⟨keys, ts₁⟩, htake, h⟩ := bind_eq_ok_iff.mp h
      cases h
      obtain ⟨names, htook, hend, hne, rfl⟩ := takeKeyList_eq_ok_iff.mp htake
      exact ⟨_, htook, .inKeys hend hne⟩
  | suggestIndex => exact reads_of_takeText .suggestIndex .suggestIndex h
  | deviceId =>
      obtain ⟨⟨network, ts₁⟩, htake, h⟩ := bind_eq_ok_iff.mp h
      obtain ⟨token, htook, rfl⟩ := takeText_eq_ok_iff.mp htake
      dsimp only at h
      split at h
      · cases h
      · rename_i device hdevice
        cases h
        exact ⟨_, htook, .deviceId hdevice⟩

/-! ### What means something is taken -/

theorem takeClause_of_reads (h : c.Reads ctx kw args clauses ctx') (htook : ts.Took args ts') :
    c.takeClause ctx kw ts = .ok (clauses, ctx', ts') := by
  cases h with
  | compare op name hbool hv =>
      have htake := takeComparison_eq_ok_iff.mpr ⟨_, name, _, _, htook, hbool, hv, rfl⟩
      cases op <;> exact bind_eq_ok_iff.mpr ⟨_, htake, rfl⟩
  | oneOf name hend hbool hvalues | noneOf name hend hbool hvalues =>
      exact bind_eq_ok_iff.mpr
        ⟨_, takeValueList_eq_ok_iff.mpr ⟨_, name, _, htook, hend, hbool, hvalues, rfl⟩, rfl⟩
  | like name text | notLike name text =>
      exact bind_eq_ok_iff.mpr
        ⟨_, takeFieldAndPattern_eq_ok_iff.mpr ⟨name, text, htook, rfl, rfl⟩, rfl⟩
  | isNull name | isNotNull name | ascending name | descending name | keyPrefix name
  | suggestIndex name =>
      exact bind_eq_ok_iff.mpr ⟨_, takeText_eq_ok_iff.mpr ⟨name, htook, rfl⟩, rfl⟩
  | and | or | beginGroup | endGroup =>
      obtain rfl := Tokens.took_nil.mp htook
      rfl
  | writeTime ascending =>
      exact bind_eq_ok_iff.mpr ⟨_, takeDirection_eq_ok_iff.mpr htook, rfl⟩
  | limit hn ho =>
      exact bind_eq_ok_iff.mpr ⟨_, takeLimit_eq_ok_iff.mpr ⟨_, _, _, _, htook, hn, ho, rfl⟩, rfl⟩
  | inKeys hend hne =>
      exact bind_eq_ok_iff.mpr ⟨_, takeKeyList_eq_ok_iff.mpr ⟨_, htook, hend, hne, rfl⟩, rfl⟩
  | deviceId hdevice =>
      refine bind_eq_ok_iff.mpr ⟨_, takeText_eq_ok_iff.mpr ⟨_, htook, rfl⟩, ?_⟩
      simp only [hdevice]

/-- **A clause is taken exactly if arguments that mean it come next.** -/
theorem takeClause_eq_ok_iff : c.takeClause ctx kw ts = .ok (clauses, ctx', ts') ↔
    ∃ args, ts.Took args ts' ∧ c.Reads ctx kw args clauses ctx' :=
  ⟨reads_of_takeClause, fun ⟨_, htook, hreads⟩ => takeClause_of_reads hreads htook⟩

/-! ## Texts -/

/-- What phrases mean, one after the other. -/
inductive Denotes (c : Compiler) : Context → List Phrase → List Clause → Prop where
  | nil (ctx : Context) : Denotes c ctx [] []
  | cons {ctx ctx' : Context} {p : Phrase} {phrases : List Phrase} {clauses more : List Clause} :
      c.Reads ctx p.keyword p.args clauses ctx' → Denotes c ctx' phrases more →
      Denotes c ctx (p :: phrases) (clauses ++ more)

/-- Whether a text means a query: it is short enough, and its tokens split into phrases, not too
many, that mean the clauses of the query. -/
structure Accepts (c : Compiler) (text : String) (q : Query) : Prop where
  bytes : text.utf8ByteSize ≤ c.limits.queryBytes
  phrases : ∃ phrases : List Phrase, Phrase.Split (tokenize text) phrases ∧
    phrases.length ≤ c.limits.queryClauses ∧ c.Denotes (Context.ofText text) phrases q

/-- One round of the loop takes the keyword and its arguments. -/
theorem takeClauses_cons {budget : Nat} {token : String} (htoken : ts.Took [token] ts') :
    c.takeClauses (budget + 1) ctx ts =
      match Keyword.ofText? token with
      | none => .error (.unknownKeyword ts.read)
      | some kw => c.takeClause ctx kw ts' >>= fun r =>
          c.takeClauses budget r.2.1 r.2.2 >>= fun more => .ok (r.1 ++ more) := by
  have hnext : ts.next? = some (token, ts') := Tokens.next?_eq_some_iff.mpr htoken
  rewrite [takeClauses, hnext]
  rfl

theorem takeClauses_nil (budget : Nat) (h : ts.rest = []) :
    c.takeClauses budget ctx ts = .ok [] := by
  rw [takeClauses, Tokens.next?_eq_none_iff.mpr h]

/-- What a loop that succeeds has done: no token was left, or a phrase was taken in one round, and
the rounds after it took what comes behind. -/
theorem takeClauses_cases {budget : Nat} {q : Query} (h : c.takeClauses budget ctx ts = .ok q) :
    (ts.rest = [] ∧ q = []) ∨
      ∃ (rounds : Nat) (p : Phrase) (clauses more : List Clause) (ctx' : Context) (ts' : Tokens),
        budget = rounds + 1 ∧ ts.Took p.tokens ts' ∧ c.Reads ctx p.keyword p.args clauses ctx' ∧
          c.takeClauses rounds ctx' ts' = .ok more ∧ q = clauses ++ more := by
  cases hnext : ts.next? with
  | none =>
      have hrest := Tokens.next?_eq_none_iff.mp hnext
      rw [takeClauses_nil budget hrest] at h
      cases h
      exact .inl ⟨hrest, rfl⟩
  | some r =>
      obtain ⟨token, mid⟩ := r
      have htoken := Tokens.next?_eq_some_iff.mp hnext
      cases budget with
      | zero =>
          -- A token is left, but no round.
          rw [takeClauses, hnext] at h
          cases h
      | succ rounds =>
          rw [takeClauses_cons htoken] at h
          split at h
          · cases h
          rename_i kw hkw
          obtain rfl := Keyword.ofText?_eq_some_iff.mp hkw
          obtain ⟨⟨clauses, ctx', ts'⟩, hclause, h⟩ := bind_eq_ok_iff.mp h
          obtain ⟨more, hmore, h⟩ := bind_eq_ok_iff.mp h
          cases h
          obtain ⟨args, htook, hreads⟩ := takeClause_eq_ok_iff.mp hclause
          have hphrase : ts.Took ([kw.text] ++ args) ts' :=
            Tokens.took_append.mpr ⟨mid, htoken, htook⟩
          exact .inr ⟨rounds, ⟨kw, args, hreads.fits⟩, clauses, more, ctx', ts', rfl, hphrase,
            hreads, hmore, rfl⟩

/-- Soundness, by induction on the rounds: each of them takes the phrase at the front. -/
theorem denotes_of_takeClauses {budget : Nat} {q : Query}
    (h : c.takeClauses budget ctx ts = .ok q) :
    ∃ phrases, Phrase.Split ts.rest phrases ∧ phrases.length ≤ budget ∧ c.Denotes ctx phrases q := by
  induction budget generalizing ctx ts q with
  | zero =>
      obtain ⟨hrest, rfl⟩ | ⟨_, _, _, _, _, _, hbudget, -⟩ := takeClauses_cases h
      · exact ⟨[], hrest, Nat.zero_le _, .nil ctx⟩
      · cases hbudget
  | succ budget ih =>
      obtain ⟨hrest, rfl⟩ | ⟨rounds, p, clauses, more, ctx₁, ts₁, hbudget, htook, hreads, hmore, rfl⟩
        := takeClauses_cases h
      · exact ⟨[], hrest, Nat.zero_le _, .nil ctx⟩
      · obtain rfl := Nat.succ.inj hbudget
        obtain ⟨phrases, hsplit, hlength, hdenotes⟩ := ih hmore
        refine ⟨p :: phrases, ?_, Nat.succ_le_succ hlength, .cons hreads hdenotes⟩
        rw [Phrase.Split, htook.rest, List.flatMap_cons, ← hsplit]

/-- Completeness, by induction on the meaning: the tokens of the first phrase are taken as they
are, since every reader takes what its arguments are. -/
theorem takeClauses_of_denotes {budget : Nat} {phrases : List Phrase} {q : Query}
    (h : c.Denotes ctx phrases q) (hsplit : Phrase.Split ts.rest phrases)
    (hlength : phrases.length ≤ budget) : c.takeClauses budget ctx ts = .ok q := by
  induction h generalizing budget ts with
  | nil => exact takeClauses_nil budget hsplit
  | @cons ctx ctx₁ p phrases clauses more hreads hdenotes ih =>
      rw [List.length_cons] at hlength
      obtain ⟨budget, rfl⟩ : ∃ b, budget = b + 1 := Nat.exists_eq_add_one.mpr (by omega)
      obtain ⟨ts₂, hphrase, hrest⟩ :
          ∃ ts₂, ts.Took p.tokens ts₂ ∧ Phrase.Split ts₂.rest phrases :=
        ⟨⟨_, _⟩, ⟨hsplit, rfl⟩, rfl⟩
      obtain ⟨ts₁, htoken, hargs⟩ := Tokens.took_append.mp
        (show ts.Took ([p.keyword.text] ++ p.args) ts₂ from hphrase)
      rw [takeClauses_cons htoken, Keyword.ofText?_eq_some_iff.mpr rfl]
      exact bind_eq_ok_iff.mpr ⟨_, takeClause_of_reads hreads hargs, bind_eq_ok_iff.mpr
        ⟨more, ih hrest (Nat.le_of_succ_le_succ hlength), rfl⟩⟩

/-- **The loop compiles exactly the tokens that split into phrases with a meaning, at most as many
as it has rounds.** -/
theorem takeClauses_eq_ok_iff {budget : Nat} {q : Query} :
    c.takeClauses budget ctx ts = .ok q ↔ ∃ phrases, Phrase.Split ts.rest phrases ∧
      phrases.length ≤ budget ∧ c.Denotes ctx phrases q :=
  ⟨denotes_of_takeClauses, fun ⟨_, hsplit, hlength, h⟩ => takeClauses_of_denotes h hsplit hlength⟩

theorem compile?_eq_ok_iff {text : String} {q : Query} :
    c.compile? text = .ok q ↔ c.Accepts text q := by
  unfold compile?
  constructor
  · intro h
    split at h
    · cases h
    · rename_i hbytes
      exact ⟨Nat.le_of_not_lt hbytes, takeClauses_eq_ok_iff.mp h⟩
  · rintro ⟨hbytes, hphrases⟩
    rw [if_neg (Nat.not_lt_of_le hbytes)]
    exact takeClauses_eq_ok_iff.mpr hphrases

/-! ## Rounds of the loop -/

/-- One round of the loop: it takes a keyword and its arguments. -/
def Round (c : Compiler) (ctx : Context) (ts : Tokens) (ctx' : Context) (ts' : Tokens) : Prop :=
  ∃ token mid kw clauses, ts.next? = some (token, mid) ∧ Keyword.ofText? token = some kw ∧
    c.takeClause ctx kw mid = .ok (clauses, ctx', ts')

/-- Each round takes at least the keyword. -/
theorem Round.length_lt (h : c.Round ctx ts ctx' ts') : ts'.rest.length < ts.rest.length := by
  obtain ⟨token, mid, kw, clauses, hnext, -, hclause⟩ := h
  have htoken := Tokens.next?_eq_some_iff.mp hnext
  obtain ⟨args, htook, -⟩ := takeClause_eq_ok_iff.mp hclause
  rw [htoken.rest, htook.rest]
  simp only [List.length_append, List.length_cons]
  omega

/-- **With a round for each token, the loop ends before its rounds do**: how many more there are
makes no difference. -/
theorem takeClauses_of_length_le {budget budget' : Nat} (h : ts.rest.length ≤ budget)
    (h' : ts.rest.length ≤ budget') : c.takeClauses budget ctx ts = c.takeClauses budget' ctx ts := by
  induction budget generalizing budget' ctx ts with
  | zero =>
      have hrest : ts.rest = [] := List.eq_nil_of_length_eq_zero (Nat.le_zero.mp h)
      rw [takeClauses_nil _ hrest, takeClauses_nil _ hrest]
  | succ budget ih =>
      cases hnext : ts.next? with
      | none =>
          have hrest := Tokens.next?_eq_none_iff.mp hnext
          rw [takeClauses_nil _ hrest, takeClauses_nil _ hrest]
      | some r =>
          obtain ⟨token, mid⟩ := r
          have htoken := Tokens.next?_eq_some_iff.mp hnext
          have hlength : ts.rest.length = mid.rest.length + 1 := by rw [htoken.rest]; simp
          obtain ⟨budget', rfl⟩ : ∃ b, budget' = b + 1 := Nat.exists_eq_add_one.mpr (by omega)
          rw [takeClauses_cons htoken, takeClauses_cons htoken]
          -- The round is the same for both; what is left after it has fewer tokens.
          cases hkw : Keyword.ofText? token with
          | none => rfl
          | some kw =>
              cases hclause : c.takeClause ctx kw mid with
              | error e => simp only [hclause]; rfl
              | ok r =>
                  obtain ⟨clauses, ctx₁, ts₁⟩ := r
                  have hround : c.Round ctx ts ctx₁ ts₁ :=
                    ⟨token, mid, kw, clauses, hnext, hkw, hclause⟩
                  have hlt := hround.length_lt
                  have hmore := @ih ctx₁ ts₁ budget' (by omega) (by omega)
                  simp only [hclause]
                  show (c.takeClauses budget ctx₁ ts₁ >>= _) = (c.takeClauses budget' ctx₁ ts₁ >>= _)
                  rw [hmore]

/-! ## The grammar -/

/-- **The compiler accepts exactly its grammar.** A text compiles to a query if and only if it
means the query; its tokens split into phrases in one way at most; a text that means no query
selects everything, and fails. The loop over the clauses takes at least one token a round, so that
it ends on every text. -/
theorem compiles_exactly_grammar (c : Compiler) (text : String) :
    (∀ q, c.compile? text = .ok q ↔ c.Accepts text q) ∧
    (∀ phrases phrases', Phrase.Split (tokenize text) phrases →
      Phrase.Split (tokenize text) phrases' → phrases = phrases') ∧
    (∀ q, c.Accepts text q → c.compile text = ⟨q, none⟩) ∧
    ((∀ q, ¬c.Accepts text q) →
      (c.compile text).query = selectAll ∧ (c.compile text).success = false) ∧
    (∀ ctx ts ctx' ts', c.Round ctx ts ctx' ts' → ts'.rest.length < ts.rest.length) ∧
    (∀ budget, (tokenize text).length ≤ budget →
      c.takeClauses budget (Context.ofText text) (Tokens.ofText text) =
        c.takeClauses (tokenize text).length (Context.ofText text) (Tokens.ofText text)) := by
  refine ⟨fun q => compile?_eq_ok_iff, fun _ _ => Phrase.split_unique, ?_, ?_,
    fun _ _ _ _ h => h.length_lt, fun budget h => takeClauses_of_length_le h (Nat.le_refl _)⟩
  · intro q haccepts
    simp only [compile, compile?_eq_ok_iff.mpr haccepts]
  · intro hnone
    cases hcompile : c.compile? text with
    | ok q => exact absurd (compile?_eq_ok_iff.mp hcompile) (hnone q)
    | error e => simp [compile, hcompile, Outcome.success]

end

/-- A list with a mark of another kind in it, an order, a limit and a device compile; an empty key
list does not. -/
theorem compiles_exactly_grammar_of_list_and_device :
    let c : Compiler := { directory := some { self := "me" } }
    c.Accepts " ^IN STRING a^^b ^START ^START (^) ^END ^DESC t ^LIMIT +3 -0 ^DEVICE_ID me"
      [.part (.test (.oneOf "a b" [.str "^START", .str "^"])), .orderBy "t" false, .limit 3 0,
        .keyPrefix (Blob.ofString "me"), .deviceId "me"] ∧
    (c.compile "^IN_KEYS ^START ^END").success = false := by
  intro c
  constructor
  · exact ((compiles_exactly_grammar c _).1 _).mp (by decide +kernel)
  · obtain ⟨hiff, -, -, hnone, -⟩ := compiles_exactly_grammar c "^IN_KEYS ^START ^END"
    have herror : c.compile? "^IN_KEYS ^START ^END" = .error (.emptyKeyList .inKeys) := by
      decide +kernel
    refine (hnone fun q haccepts => ?_).2
    have hok := (hiff q).mpr haccepts
    rw [herror] at hok
    cases hok

end Compiler

end PeerStore.Query
