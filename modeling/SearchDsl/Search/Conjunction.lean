import SearchDsl.Search.Body

/-!
# Combining queries

`Search.both` is the query of what two queries match both, and `Search.negation` the query of
what a query does not match.  A query of everything and one of nothing need no query around
them, and boolean queries are combined clause by clause; any other queries become clauses
of a new boolean query.

The optional clauses of two boolean queries stay apart where not all of them are required:
those of the first are kept with the number that has to match, and those of the second
become a boolean query of their own (`Search.withOptional`).
-/

namespace SearchDsl

namespace Search

/-- The query of everything. -/
def everything : Value := .query "match_all" []

/-- The query of nothing. -/
def nothing : Value := .query "match_none" []

/-- How clauses may occur in a boolean query. -/
def occurrences : List String := ["must", "must_not", "filter", "should"]

/-- The boolean query with clauses of one occurrence. -/
def boolOf (occurrence : String) (clauses : List Value) : Value :=
  if clauses.isEmpty then .query "bool" []
  else .query "bool" [(.text occurrence, .list clauses)]

/-- The clauses of an occurrence in a boolean query. -/
def clausesOf (occurrence : String) (params : Dict) : List Value :=
  match params.find? occurrence with
  | some (.list clauses _) => clauses
  | some v => [v]
  | none => []

/-- The boolean query with clauses added to those of an occurrence. -/
def addClauses (occurrence : String) (clauses : List Value) (params : Dict) : Dict :=
  params.insert occurrence (.list (clausesOf occurrence params ++ clauses))

/-- The name of the number of optional clauses that have to match. -/
def minimumName : String := "minimum_should_match"

/-- The number of optional clauses that have to match: one of them where nothing else has to. -/
def minimumOf (params : Dict) : Value :=
  let given := params.get minimumName
  let demanded := clausesOf "must" params ++ clausesOf "filter" params
  if !given.isNull then given
  else if (clausesOf "should" params).isEmpty || !demanded.isEmpty then .int 0
  else .int 1

/-- The number of optional clauses that have to match, where it is a count. -/
def countOf (minimum : Value) : Except Fault Nat :=
  match minimum with
  | .bool b => .ok b.toNat
  | .int n => if n < 0 then .error .badValue else .ok n.toNat
  | _ => .error .badValue

/-- The parameters of a boolean query without occurrences that have no clauses. -/
def withoutEmpty (params : Dict) : Dict :=
  params.filter fun param =>
    match param.2 with
    | .list [] _ => !occurrences.contains param.1.word
    | _ => true

/-! ### Both of two queries -/

/-- The boolean query `params` with the optional clauses of a boolean query `given`. -/
def withOptional (params given : Dict) : Except Fault Dict := do
  let minimum := minimumOf given
  let count ← countOf minimum
  let clauses := clausesOf "should" given
  if clauses.length ≤ count then return addClauses "must" clauses params
  else if (clausesOf "should" params).isEmpty then
    return addClauses "should" clauses (params.insert (.text minimumName) minimum)
  else if count = 0 && (← countOf (minimumOf params)) = 0 then
    return addClauses "should" clauses params
  else
    let apart : Dict := [(.text minimumName, minimum), ("should", .list clauses)]
    return addClauses "must" [.query "bool" apart] params

/-- Both of two boolean queries. -/
def bothBool (first second : Dict) : Except Fault Dict := do
  let params := ["must", "must_not", "filter"].foldl
    (fun params occurrence => addClauses occurrence (clausesOf occurrence second) params) first
  let params : Dict := params.insert (.text "should") (.list [])
  withOptional (← withOptional (params.erase [minimumName]) first) second

/-- A boolean query and one more query that has to match. -/
def boolAnd (params : Dict) (query : Value) : Dict :=
  let demanded := clausesOf "must" params ++ clausesOf "filter" params
  let optional := demanded.isEmpty && !(clausesOf "should" params).isEmpty
  let params := addClauses "must" [] params
  if optional && !params.names.contains minimumName then
    addClauses "must" [query] (params.insert (.text minimumName) (.int 1))
  else addClauses "must" [query] params

/-- A query as a copy of it.  A query with score functions has these first. -/
def copyOfQuery : Value → Value
  | .query "function_score" params =>
    let functions : List Name := ["functions"]
    .query "function_score" (Entries.select functions params ++ Entries.erase functions params)
  | v => v

/-- The query of what two queries match both. -/
def both (first second : Value) : Except Fault Value :=
  match first, second with
  | .query "match_all" _, second => .ok (copyOfQuery second)
  | .query "match_none" params, _ => .ok (.query "match_none" params)
  | .query "bool" params, .query "bool" others => do
    return .query "bool" (withoutEmpty (← bothBool params others))
  | .query "bool" params, second => .ok (.query "bool" (withoutEmpty (boolAnd params second)))
  | first, .query "match_all" _ => .ok (copyOfQuery first)
  | _, .query "match_none" params => .ok (.query "match_none" params)
  | first, .query "bool" params => .ok (.query "bool" (withoutEmpty (boolAnd params first)))
  | .query kind params, second => .ok (boolOf "must" [.query kind params, second])
  | _, _ => .error .wrongType

/-! ### Not a query -/

/-- The query of what a boolean query does not match, where `negations` holds the negations of the
clauses of each occurrence. -/
def negationOfBool (params : Dict) (negations : Entries Key (List Value)) : Value :=
  let of (occurrence : String) : List Value := (negations.find? occurrence).getD []
  let should := clausesOf "should" params
  let optional :=
    if !should.isEmpty && (minimumOf params).truthy then [boolOf "must_not" should] else []
  match occurrences.all fun name => (clausesOf name params).isEmpty,
      of "must" ++ of "filter" ++ clausesOf "must_not" params ++ optional with
  | true, _ => nothing
  | false, [negation] => negation
  | false, clauses => boolOf "should" clauses

mutual

/-- The query of what a query does not match. -/
def negation : Value → Value
  | .query kind params =>
    if kind = "match_all" then nothing
    else if kind = "match_none" then everything
    else if kind = "bool" then negationOfBool params (negatedParams params)
    else boolOf "must_not" [.query kind params]
  | v => boolOf "must_not" [v]

/-- The negations of the clauses of each occurrence. -/
def negatedParams : List (Key × Value) → List (Key × List Value)
  | [] => []
  | (key, .list clauses _) :: params => (key, negations clauses) :: negatedParams params
  | _ :: params => negatedParams params

/-- The negations of some queries. -/
def negations : List Value → List Value
  | [] => []
  | query :: queries => negation query :: negations queries

end

end Search

end SearchDsl
