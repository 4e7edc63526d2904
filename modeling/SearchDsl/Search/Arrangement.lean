import SearchDsl.Search.AggregationSchema
import SearchDsl.Search.QuerySchema
import SearchDsl.Value.Identity
import SearchDsl.Value.View

/-!
# Arranging parts

`Search.arrange` brings a value that holds parts of a search in some role into the form in
which a search object keeps it: queries and score functions become objects, single parts
become lists where lists are called for, parts that hold nothing are left out, and
parameters take the places that the schema of their kind gives them.  A part of an unknown
kind is a fault.

The parameters of a part are arranged first, each by itself (`Search.attempts`), and then the
part is put together from them; a fault of a parameter counts when the parameter gets its
place, and not when another one takes it.

A part that is given as a dictionary shares nothing with what becomes of it.
-/

namespace SearchDsl

namespace Search

/-- The schema of a kind of parts. -/
def schema? : Part → String → Option Schema
  | .query => querySchema?
  | .aggregation => aggregationSchema?
  | .scoreFunction => scoreFunctionSchema?

/-- Entries whose values may be faults. -/
abbrev Attempts := Entries Key (Except Fault Value)

/-- The entries, when none of them is a fault. -/
def settle (attempts : Attempts) : Except Fault Dict :=
  attempts.mapM fun e => do return (e.1, ← e.2)

/-! ### Names of parameters -/

/-- How the names of parameters are spelled. -/
inductive Spelling where
  /-- As they are. -/
  | literal
  /-- With two underscores for a dot, unless an option among the parameters says otherwise. -/
  | dotless
  deriving DecidableEq

/-- The option that says whether two underscores are spelled for a dot. -/
def spellingOption : String := "_expand__to_dot"

/-- The names that no parameter may have. -/
def Spelling.reserved : Spelling → List Name
  | .literal => ["self", spellingOption]
  | .dotless => ["self"]

/-- A text with a dot for every two underscores. -/
def withDots : List Char → List Char
  | '_' :: '_' :: cs => '.' :: withDots cs
  | c :: cs => c :: withDots cs
  | [] => []

/-- Two underscores are spelled for a dot among the given parameters. -/
def Spelling.dots (s : Spelling) (given : Dict) : Bool :=
  s = .dotless && ((given.get spellingOption).isNull || (given.get spellingOption).truthy)

/-- The name that is spelled by a name; an underscore may keep a name from being a keyword. -/
def spelledName (dots : Bool) (name : String) : String :=
  let name := if dots then String.ofList (withDots name.toList) else name
  if name = "from_" then "from" else name

/-- The key whose name is spelled by that of a key. -/
def spelledKey (dots : Bool) (key : Key) : Key :=
  let name := spelledName dots key.word
  if name = key.word then key else .text name

/-- The parameters under the names that their names spell. -/
def spelled (dots : Bool) (params : Attempts) : Attempts :=
  Entries.ofPairs (params.map fun e => (spelledKey dots e.1, e.2))

/-! ### Parameters -/

/-- The parameters of a part: as they are given, and what becomes of each of them when it is
arranged. -/
structure Payload where
  given : Dict
  arranged : Attempts

namespace Payload

/-- No parameters. -/
def empty : Payload := ⟨[], []⟩

/-- One parameter that holds no part. -/
def single (name : String) (v : Value) : Payload := ⟨[(.text name, v)], [(.text name, .ok v)]⟩

/-- The parameters with those of `others` filed among them. -/
def merge (p others : Payload) : Payload :=
  ⟨p.given.merge others.given, p.arranged.merge others.arranged⟩

/-- The parameters with the given names, in the order of the names. -/
def select (p : Payload) (names : List Name) : Payload :=
  ⟨p.given.select names, p.arranged.select names⟩

/-- The parameters with the given names that are true as a condition. -/
def selectTrue (p : Payload) (names : List Name) : Payload :=
  p.select (names.filter fun name => (p.given.get name).truthy)

end Payload

/-- A parameter that would hold parts but holds none. -/
def Schema.holdsNone (s : Schema) (param : Key × Value) : Bool :=
  match s.role param.1.word, param.2 with
  | .plain, _ => false
  | .sequence, _ => false
  | _, .list [] _ => true
  | _, .dict [] _ => true
  | _, _ => false

/-- The score functions of a query are given by their kinds and not as a list. -/
def functionsByKind (p : Part) (kind : String) (params : Dict) : Bool :=
  p == .query && kind == "function_score" && !params.names.contains "functions"

/-- The role of a parameter of the parts of a kind. -/
def roleOf (p : Part) (kind name : String) : Role :=
  ((schema? p kind).map (·.role name)).getD .plain

/-- The role of a parameter among the parameters of a part. -/
def paramRole (p : Part) (kind : String) (params : Dict) (name : String) : Role :=
  if functionsByKind p kind params && scoreFunctions.contains name then .function name
  else roleOf p kind name

/-- The parameters with the score functions among them gathered in one list. -/
def gatherFunctions (params : Attempts) : Attempts :=
  let kinds : List Name := scoreFunctions.map .text
  (params.erase kinds).insert "functions"
    ((params.select kinds).mapM Prod.snd |>.map (.list ·))

/-- The parameters of a part of the given kind in their places, under the names that their
names spell and without those that hold no parts. -/
def settlePayload (p : Part) (kind : String) (spelling : Spelling) (payload : Payload) :
    Except Fault Dict := do
  match schema? p kind with
  | none => .error .unknownKind
  | some s =>
    if payload.given.any fun e => !e.1.isText || spelling.reserved.contains e.1.name then
      .error .wrongType
    let params :=
      if functionsByKind p kind payload.given then gatherFunctions payload.arranged
      else payload.arranged
    let params := s.place (params.erase [spellingOption])
    let params ← settle (spelled (spelling.dots payload.given) params)
    return params.filter fun param => !s.holdsNone param

/-- A value that has the role of a sequence. -/
def sequence : Value → Except Fault Value
  | .bytes octets => Value.toList (.bytes octets)
  | .tuple items => Value.toList (.tuple items)
  | .search parts indices => Value.toList (.search parts indices)
  | .held contents => Value.toList (.held contents)
  | v => .ok v

/-! ### Parts -/

/-- The entries of a part beside its kind. -/
def optionsOf : Part → List Name
  | .query => []
  | .aggregation => ["aggs", "meta"]
  | .scoreFunction => scoreFunctionOptions

/-- The kind of the part with the given entries, as it is named there; the empty text where
there is none. -/
def kindOf (p : Part) (part : Dict) : String :=
  match part.erase (optionsOf p) with
  | [(kind, _)] => kind.word
  | _ => ""

/-- The role of an entry beside the kind of a part. -/
def optionRole (p : Part) (part : Dict) (name : String) : Role :=
  match p with
  | .query => .plain
  | .aggregation => if name = "aggs" then roleOf .aggregation (kindOf p part) name else .plain
  | .scoreFunction => (Entries.find? name scoreFunctionRoles).getD .plain

/-- The parameters of a bucket with the query among them under its kind, where the bucket is
one that a query selects. -/
def openFilter (kind : String) (params : Dict) : Dict :=
  match kind, params.find? "filter" with
  | "filter", some (.query name query) => (params.erase ["filter"]).insert name (.dict query)
  | _, _ => params

/-- An aggregation from its parameters.  What is below it and what is noted about it are
written beside the other parameters. -/
def aggregation (kind : String) (params : Dict) : Value :=
  let beside : List Name := if isBucket kind then ["meta", "aggs"] else ["meta"]
  .dict ((.text kind, .dict (openFilter kind (params.erase beside))) :: params.select beside)

/-- The entries of a value can be copied to take further ones. -/
def checkCopyable : Value → Except Fault Unit
  | .dict _ _ => .ok ()
  | .list _ _ | .held (.list _ _) => .error .wrongType
  | v => .error (v.lacking "copy")

/-- A part from the entries beside its kind, its kind and the parameters of that kind; `own` is
absent when these are no dictionary.  What is below an aggregation and what is noted about it
count as parameters when they are true as a condition, and what stands beside a score function
counts as a parameter unless it is one already. -/
def ofPayload (p : Part) (options : Payload) (kind : String) (params : Value)
    (own : Option Payload) : Except Fault Value := do
  match p with
  | .query =>
    if (schema? p kind).isNone then .error .unknownKind
    let some own := own | .error .wrongType
    return .query kind (← settlePayload p kind .literal own)
  | .aggregation =>
    let further := options.selectTrue (optionsOf p)
    if !further.given.isEmpty then checkCopyable params
    if (schema? p kind).isNone then .error .unknownKind
    let some own := own | .error .wrongType
    return aggregation kind (← settlePayload p kind .literal (own.merge further))
  | .scoreFunction =>
    let own := own.getD (.single "value" params)
    let options := options.select (optionsOf p)
    return .scoreFunction kind (← settlePayload p kind .dotless (options.merge own))

/-- A part from its entries.  Without a kind, a score function is a boost factor. -/
def assemble (p : Part) (part : Dict) (options : Attempts) (payloads : Entries Key Payload) :
    Except Fault Value :=
  match p, part.erase (optionsOf p) with
  | p, [(kind, params)] =>
    ofPayload p ⟨part, options⟩ kind.word params (payloads.find? kind.name)
  | .scoreFunction, [] => ofPayload p ⟨part, options⟩ "boost_factor" .empty (some .empty)
  | _, _ => .error .badValue

/-- The part that a value other than a dictionary stands for: an object stands for itself,
and the name of a kind for a part without parameters. -/
def partOf (p : Part) (v : Value) : Except Fault Value :=
  match p, v with
  | .query, .query name params => .ok (.query name params)
  | .scoreFunction, .scoreFunction name params => .ok (.scoreFunction name params)
  | p, v => do
    let kind := (← v.key).word
    if (schema? p kind).isNone then .error .unknownKind
    match p with
    | .query => return .query kind []
    | .scoreFunction => return .scoreFunction kind []
    | .aggregation => return .single kind .empty

/-- What was handed out of a query object, arranged in the given role; it holds no parts. -/
def arrangeHeld (role : Role) (v : Value) : Except Fault Value :=
  match role with
  | .plain => .ok v
  | .sequence => v.toList
  | .one p => partOf p v
  | .many p => do return .list [← partOf p v]
  | .named _ => .error (v.lacking "items")
  | .function kind => ofPayload .scoreFunction .empty kind v none

mutual

/-- A value that holds parts in the given role, arranged. -/
def arrange : Role → Value → Except Fault Value
  | .plain, v => .ok v
  | .sequence, v => sequence v
  | .one p, .dict part _ => do
    let v ← assemble p part (attempts (optionRole p part) part) (payloads p part)
    return v.copy
  | .one p, v => partOf p v
  | .many p, .list items _ => do return .list (← arrangeAll (.one p) items)
  | .many p, .tuple items => do return .list (← arrangeAll (.one p) items)
  | .many p, .dict part _ => do
    let v ← assemble p part (attempts (optionRole p part) part) (payloads p part)
    return .list [v.copy]
  | .many p, v => do return .list [← partOf p v]
  | .named p, .dict entries _ => do return .dict (← settle (attempts (fun _ => .one p) entries))
  | .named p, .held (.dict entries _) => do
    return .dict (← settle (attempts (fun _ => .one p) entries))
  | .named _, v => .error (v.lacking "items")
  | .function kind, .dict params _ => do
    let v ← ofPayload .scoreFunction .empty kind (.dict params)
      (some ⟨params, attempts (roleOf .scoreFunction kind) params⟩)
    return v.copy
  | .function kind, v => ofPayload .scoreFunction .empty kind v none

/-- Items that hold parts in the given role, arranged. -/
def arrangeAll (role : Role) : List Value → Except Fault (List Value)
  | [] => .ok []
  | item :: items => do
    let first ← arrange role item
    return first :: (← arrangeAll role items)

/-- The entries, each arranged in the role that goes with its name. -/
def attempts (role : String → Role) : List (Key × Value) → List (Key × Except Fault Value)
  | [] => []
  | (key, v) :: entries => (key, arrange (role key.word) v) :: attempts role entries

/-- The parameters that the entries of a part hold, each for the kind that it is named by. -/
def payloads (p : Part) : List (Key × Value) → List (Key × Payload)
  | [] => []
  | (key, .dict params _) :: part =>
    (key, ⟨params, attempts (paramRole p key.word params) params⟩) :: payloads p part
  | (key, .held (.dict params _)) :: part =>
    if p = .scoreFunction then payloads p part
    else (key, ⟨params, heldAttempts (paramRole p key.word params) params⟩) :: payloads p part
  | _ :: part => payloads p part

/-- The entries of a dictionary that was handed out, each arranged in the role that goes with
its name; lists and dictionaries among them are handed out as well. -/
def heldAttempts (role : String → Role) :
    List (Key × Value) → List (Key × Except Fault Value)
  | [] => []
  | (key, .dict held identity) :: entries =>
    let attempt : Except Fault Value :=
      match role key.word with
      | .named p => do return .dict (← settle (attempts (fun _ => .one p) held))
      | role => arrangeHeld role (.held (.dict held identity))
    (key, attempt) :: heldAttempts role entries
  | (key, .list items identity) :: entries =>
    (key, arrangeHeld (role key.word) (.held (.list items identity))) :: heldAttempts role entries
  | (key, v) :: entries => (key, arrange (role key.word) v) :: heldAttempts role entries

end

end Search

end SearchDsl
