import PeerStore.Directory
import PeerStore.Limits
import PeerStore.Query.Clause
import PeerStore.Query.Token

/-!
# Compiling query text

`Compiler.compile?` reads the tokens of a query text clause by clause: a keyword, then the
arguments that it asks for. The first problem ends it, and `Compiler.compile` then gives the
query that selects everything, together with the problem. A device clause adds a key prefix of
its own unless the text names one anywhere.
-/

set_option autoImplicit false

namespace PeerStore.Query

/-- Why a text does not compile. -/
inductive CompileError where
  | tooLong (actual max : Nat)
  | tooComplex (max : Nat)
  | unknownKeyword (position : Nat)
  | missingArguments (keyword : Keyword)
  | wrongType (keyword : Keyword) (tag : String)
  | malformedLiteral (keyword : Keyword) (type : FieldType)
  | missingListMarker (keyword : Keyword)
  | emptyKeyList (keyword : Keyword)
  | badDirection
  | unresolvedDevice
  deriving DecidableEq, Repr

namespace CompileError

/-- The wording shown to callers; it names the keyword and never the text. -/
def message : CompileError → String
  | tooLong actual max =>
      "query too long: " ++ toString actual ++ " bytes exceeds maximum " ++ toString max
  | tooComplex max => "query too complex: more than " ++ toString max ++ " clauses"
  | unknownKeyword position => "unknown keyword at token " ++ toString position
  | missingArguments keyword => keyword.text ++ " is missing arguments"
  | wrongType keyword tag => keyword.text ++ " does not accept field type " ++ tag
  | malformedLiteral keyword type => keyword.text ++ " has a malformed " ++ type.tag ++ " literal"
  | missingListMarker keyword =>
      keyword.text ++ " value list is not enclosed in ^START ... ^END"
  | emptyKeyList keyword => keyword.text ++ " needs at least one key"
  | badDirection => "^OrderByWriteTime expects ^IS_ASC or ^IS_DESC"
  | unresolvedDevice => "device id could not be resolved"

/-- A text that does not compile is a malformed argument. -/
def status (e : CompileError) : Status := .invalidArgument e.message

end CompileError

/-! ## Literals -/

/-- Reads a literal of a type. -/
def literal? : FieldType → String → Option Literal
  | .integer, token => (Decimal.intOfWidth? 32 token).map fun n => .int (Int32.ofInt n)
  | .long, token => (Decimal.intOfWidth? 64 token).map fun n => .long (Int64.ofInt n)
  | .double, token => (Double.ofText? token).map .double
  | .bool, "true" => some (.bool true)
  | .bool, "false" => some (.bool false)
  | .bool, _ => none
  | .string, token => some (.str (unescape token))

/-- Reads a literal for a clause. -/
def readLiteral (kw : Keyword) (type : FieldType) (token : String) : Except CompileError Literal :=
  match literal? type token with
  | some v => .ok v
  | none => .error (.malformedLiteral kw type)

/-- Reads a type tag for a clause. -/
def readType (kw : Keyword) (token : String) : Except CompileError FieldType :=
  match FieldType.ofTag? token with
  | some type => .ok type
  | none => .error (.wrongType kw token)

/-- Reads a number of results: an integer of 32 bits that is not negative. -/
def readCount (kw : Keyword) (token : String) : Except CompileError Nat :=
  match Decimal.intOfWidth? 32 token with
  | some n => if 0 ≤ n then .ok n.toNat else .error (.malformedLiteral kw .integer)
  | none => .error (.malformedLiteral kw .integer)

/-! ## Arguments -/

/-- Takes one argument as it is written. -/
def takeToken (kw : Keyword) (ts : Tokens) : Except CompileError (String × Tokens) :=
  match ts.next? with
  | some r => .ok r
  | none => .error (.missingArguments kw)

/-- Takes one argument and decodes it. -/
def takeText (kw : Keyword) (ts : Tokens) : Except CompileError (String × Tokens) :=
  match takeToken kw ts with
  | .ok (t, ts) => .ok (unescape t, ts)
  | .error e => .error e

/-- Takes a field and a pattern. -/
def takeFieldAndPattern (kw : Keyword) (ts : Tokens) :
    Except CompileError (String × String × Tokens) :=
  match ts.take? 2 with
  | some ([field, pattern], ts) => .ok (unescape field, unescape pattern, ts)
  | _ => .error (.missingArguments kw)

/-- Takes the type, the field and the value of a comparison. Booleans have no order. -/
def takeComparison (op : CompareOp) (ts : Tokens) : Except CompileError (Predicate × Tokens) :=
  match ts.take? 3 with
  | some ([tag, field, value], ts) => do
      let type ← readType op.keyword tag
      if op.isOrdering && type == .bool then .error (.wrongType op.keyword tag)
      else
        let v ← readLiteral op.keyword type value
        .ok (.compare op (unescape field) v, ts)
  | _ => .error (.missingArguments op.keyword)

/-- Takes the type, the field and the value list of a membership test. There are no lists of
booleans. -/
def takeValueList (kw : Keyword) (ts : Tokens) :
    Except CompileError (String × List Literal × Tokens) :=
  match ts.take? 3 with
  | some ([tag, field, start], ts) =>
      if start ≠ listStart then .error (.missingListMarker kw)
      else do
        let type ← readType kw tag
        if type == .bool then .error (.wrongType kw tag)
        else
          match ts.takeUntil? listEnd with
          | none => .error (.missingListMarker kw)
          | some (items, ts) => do
              let values ← items.mapM (readLiteral kw type)
              .ok (unescape field, values, ts)
  | _ => .error (.missingArguments kw)

/-- Takes a list of keys. -/
def takeKeyList (kw : Keyword) (ts : Tokens) : Except CompileError (KeySet Blob × Tokens) := do
  let (start, ts) ← takeToken kw ts
  if start ≠ listStart then .error (.missingListMarker kw)
  else
    match ts.takeUntil? listEnd with
    | none => .error (.missingListMarker kw)
    | some ([], _) => .error (.emptyKeyList kw)
    | some (items, ts) => .ok (KeySet.ofList (items.map fun t => Blob.ofString (unescape t)), ts)

/-- Takes the direction of a write-time order. -/
def takeDirection (ts : Tokens) : Except CompileError (Bool × Tokens) := do
  let (mark, ts) ← takeToken .writeTime ts
  if mark = ascendingMark then .ok (true, ts)
  else if mark = descendingMark then .ok (false, ts)
  else .error .badDirection

/-- Takes the two numbers of a limit. -/
def takeLimit (ts : Tokens) : Except CompileError (Clause × Tokens) :=
  match ts.take? 2 with
  | some ([number, offset], ts) => do
      let n ← readCount .limit number
      let o ← readCount .limit offset
      .ok (.limit n o, ts)
  | _ => .error (.missingArguments .limit)

/-! ## Clauses -/

/-- What a clause may depend on: whether the text has a key-prefix clause anywhere, and the
device of the last device clause before. -/
structure Context where
  hasKeyPrefix : Bool
  device : Option String := none
  deriving DecidableEq, Repr

/-- The context at the start of a text. -/
def Context.ofText (text : String) : Context where
  hasKeyPrefix := (tokenize text).contains Keyword.keyPrefix.text

/-- The stored form of a key prefix: that of the device, if there is one, comes first. -/
def Context.storedPrefix (ctx : Context) (pfx : String) : Blob :=
  match ctx.device with
  | some device => Blob.ofString device ++ Blob.ofString pfx
  | none => Blob.ofString pfx

/-- Compiles query texts within limits. Without a directory no device resolves. -/
structure Compiler where
  limits : Limits := {}
  directory : Option Directory := none

namespace Compiler

/-- The device behind a network id. -/
def resolve? (c : Compiler) (network : String) : Option String :=
  c.directory.bind fun d => d.resolve? network

/-- The clauses of a keyword with its arguments, the context after them, and the tokens left.
Only a device clause can make two. -/
def takeClause (c : Compiler) (ctx : Context) (kw : Keyword) (ts : Tokens) :
    Except CompileError (List Clause × Context × Tokens) :=
  let comparison (op : CompareOp) := do
    let (p, ts) ← takeComparison op ts
    .ok ([.part (.test p)], ctx, ts)
  let part (p : FilterPart) := .ok ([.part p], ctx, ts)
  match kw with
  | .equal => comparison .equal
  | .notEqual => comparison .notEqual
  | .greater => comparison .greater
  | .less => comparison .less
  | .greaterOrEqual => comparison .greaterOrEqual
  | .lessOrEqual => comparison .lessOrEqual
  | .isNull => do
      let (field, ts) ← takeText kw ts
      .ok ([.part (.test (.isNull field))], ctx, ts)
  | .isNotNull => do
      let (field, ts) ← takeText kw ts
      .ok ([.part (.test (.isNotNull field))], ctx, ts)
  | .oneOf => do
      let (field, values, ts) ← takeValueList kw ts
      .ok ([.part (.test (.oneOf field values))], ctx, ts)
  | .noneOf => do
      let (field, values, ts) ← takeValueList kw ts
      .ok ([.part (.test (.noneOf field values))], ctx, ts)
  | .like => do
      let (field, pattern, ts) ← takeFieldAndPattern kw ts
      .ok ([.part (.test (.like field pattern))], ctx, ts)
  | .notLike => do
      let (field, pattern, ts) ← takeFieldAndPattern kw ts
      .ok ([.part (.test (.notLike field pattern))], ctx, ts)
  | .and => part .and
  | .or => part .or
  | .beginGroup => part .beginGroup
  | .endGroup => part .endGroup
  | .ascending => do
      let (field, ts) ← takeText kw ts
      .ok ([.orderBy field true], ctx, ts)
  | .descending => do
      let (field, ts) ← takeText kw ts
      .ok ([.orderBy field false], ctx, ts)
  | .writeTime => do
      let (ascending, ts) ← takeDirection ts
      .ok ([.orderByWriteTime ascending], ctx, ts)
  | .limit => do
      let (clause, ts) ← takeLimit ts
      .ok ([clause], ctx, ts)
  | .keyPrefix => do
      let (pfx, ts) ← takeText kw ts
      .ok ([.keyPrefix (ctx.storedPrefix pfx)], ctx, ts)
  | .inKeys => do
      let (keys, ts) ← takeKeyList kw ts
      .ok ([.inKeys keys], ctx, ts)
  | .suggestIndex => do
      let (index, ts) ← takeText kw ts
      .ok ([.suggestIndex index], ctx, ts)
  | .deviceId => do
      let (network, ts) ← takeText kw ts
      match c.resolve? network with
      | none => .error .unresolvedDevice
      | some device =>
          let scope := if ctx.hasKeyPrefix then [] else [.keyPrefix (Blob.ofString device)]
          .ok (scope ++ [.deviceId device], { ctx with device := some device }, ts)

/-- Compiles the tokens that are left, `budget` clauses at most. -/
def takeClauses (c : Compiler) : Nat → Context → Tokens → Except CompileError (List Clause)
  | budget, ctx, ts =>
      match ts.next? with
      | none => .ok []
      | some (token, ts') =>
          match budget with
          | 0 => .error (.tooComplex c.limits.queryClauses)
          | budget + 1 =>
              match Keyword.ofText? token with
              | none => .error (.unknownKeyword ts.read)
              | some kw => do
                  let (clauses, ctx, ts) ← c.takeClause ctx kw ts'
                  let more ← takeClauses c budget ctx ts
                  .ok (clauses ++ more)

/-- Compiles a text, or tells the first problem. -/
def compile? (c : Compiler) (text : String) : Except CompileError Query :=
  if c.limits.queryBytes < text.utf8ByteSize then
    .error (.tooLong text.utf8ByteSize c.limits.queryBytes)
  else c.takeClauses c.limits.queryClauses (Context.ofText text) (Tokens.ofText text)

/-- The outcome of compiling: a query, and the problem if there was one. -/
structure Outcome where
  query : Query
  problem : Option CompileError

/-- Compiles a text; one that does not compile selects everything. -/
def compile (c : Compiler) (text : String) : Outcome :=
  match c.compile? text with
  | .ok q => ⟨q, none⟩
  | .error e => ⟨selectAll, some e⟩

/-- Whether the text compiled. -/
def Outcome.success (o : Outcome) : Bool := o.problem.isNone

/-- The query, or the failure that the problem amounts to. -/
def Outcome.result (o : Outcome) : Except Status Query :=
  match o.problem with
  | none => .ok o.query
  | some e => .error e.status

end Compiler

end PeerStore.Query
