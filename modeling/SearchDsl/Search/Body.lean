import SearchDsl.Request
import SearchDsl.Search.Arrangement
import SearchDsl.Search.Dictionary

/-!
# Search objects

A query object of the search library is a query of a known kind with its parameters
arranged (`Search.ofKind`), and a search object holds the parts of a body in a fixed order
(`Search.ofBody`): the parts that the library knows have places around the other
parameters.  The queries and aggregations among them are arranged, and the other parts are
kept as they are given until the search object is written.

The text that suggestions share is moved into each of them.  This is done in place, so that
the suggestions of a body that is given twice share their text only the first time.
-/

namespace SearchDsl

namespace Search

/-- The query object of a kind with some parameters, the names of which may be spelled
without dots. -/
def ofKind (kind : String) (params : Value) : Except Fault Value := do
  let given ← params.mapping
  if given.any fun e => !e.1.isText || e.1.name = "name_or_query" then .error .wrongType
  return .query kind
    (← settlePayload .query kind .dotless ⟨given, attempts (paramRole .query kind given) given⟩)

/-- The list of no parts that a query object has for a parameter that would hold a list of them
and is not given. -/
def emptyMember? (v : Value) (name : String) : Option Value :=
  match v with
  | .query kind params =>
    match Entries.find? name params, Entries.find? name (queryRoles kind) with
    | none, some (.many _) => some (.list [])
    | _, _ => none
  | _ => none

/-- What a query object hands out as one of its parameters: a dictionary is handed out as
something that answers for it. -/
def handedOut : Value → Value
  | .dict entries identity => .held (.dict entries identity)
  | v => v

/-- The member of a query object or a score function with the given name.  One is the name of its
kind, and the others are its parameters; those whose names start with an underscore are out
of reach.  What was handed out by a query object has its entries for members. -/
def member? (v : Value) (name : String) : Option Value :=
  match v with
  | .query kind _ | .scoreFunction kind _ =>
    if name = "name" then some (.str kind)
    else if name.startsWith "_" then none
    else ((v.attribute? name).map handedOut).or (emptyMember? v name)
  | v => v.attribute? name

/-! ### The parts of a body -/

/-- The parts of a body that have a place of their own. -/
def placed : List Name :=
  ["query", "knn", "rank", "post_filter", "aggs", "aggregations", "sort", "collapse", "_source",
    "highlight", "suggest", "script_fields"]

/-- A part of a body as it is given. -/
def part (name : String) (body : Dict) : Dict :=
  ((body.find? name).map fun v => (.text name, v)).toList

/-- The query under a name. -/
def queryPart (name : String) (body : Dict) : Except Fault Dict :=
  (part name body).mapM fun e => do return (e.1, ← arrange (.one .query) e.2)

/-- The aggregations, which have two names. -/
def aggsPart (body : Dict) : Except Fault Dict := do
  let given := ((body.find? "aggs").or (body.find? "aggregations")).getD .empty
  if given.truthy then return [("aggs", ← arrange (.named .aggregation) given)]
  else return []

/-- The vector searches; a single one stands for the list of it. -/
def knnPart (body : Dict) : Dict :=
  (part "knn" body).map fun e =>
    match e.2 with
    | .dict knn i => (e.1, .list [.dict knn i])
    | v => (e.1, v)

/-- The highlighting with its fields first. -/
def highlightPart (body : Dict) : Except Fault Dict :=
  match body.find? "highlight" with
  | none => .ok []
  | some (.dict given _) =>
    match Entries.find? "fields" given with
    | none => .error .missingKey
    | some fields =>
      .ok [("highlight", .dict (("fields", fields) :: Entries.erase ["fields"] given))]
  | some (.list _ _) | some (.held (.list _ _)) => .error .wrongType
  | some v => .error (v.lacking "copy")

/-- A suggestion with the text that all of them share, unless it has its own. -/
def withText (text : Value) : Value → Build Value
  | .dict suggestion identity =>
    if (Entries.names suggestion).contains "text" then pure (.dict suggestion identity)
    else do
      let suggestion : Value := .dict (suggestion ++ [(.text "text", text)]) identity
      Build.change identity suggestion
      return suggestion
  | v => .fail (v.lacking "setdefault")

/-- Some suggestions, each with the text that all of them share. -/
def allWithText (text : Value) : List (Key × Value) → Build (List (Key × Value))
  | [] => pure []
  | (key, v) :: suggestions => do
    let v ← withText text v
    return (key, v) :: (← allWithText text suggestions)

/-- The name that suggestions share their text under occurs among them. -/
def mentionsText : Value → Bool
  | .str s => (s.splitOn "text").length != 1
  | .list items _ | .tuple items | .held (.list items _) =>
    items.any fun item => item.key?.any fun key => key.name == .text "text"
  | .held (.dict entries _) => (Entries.names entries).contains "text"
  | _ => false

/-- The suggestions, each with its text. -/
def suggestions : Value → Build Value
  | .dict given identity =>
    match Entries.find? "text" given with
    | none => pure (.dict given identity)
    | some text => do
      let shared := Entries.erase ["text"] given
      Build.change identity (.dict shared identity)
      return .dict (← allWithText text shared) identity
  | .bytes _ => .fail .wrongType
  | v => do
    let _ ← v.items
    if mentionsText v then .fail (popFault v) else return v
where
  /-- The fault of taking the text out of what is no dictionary. -/
  popFault : Value → Fault
    | .list _ _ | .held (.list _ _) => .wrongType
    | v => v.lacking "pop"

/-- The suggestions of a body. -/
def suggestPart (body : Dict) : Build Dict :=
  (part "suggest" body).mapM fun e => do return (e.1, ← suggestions e.2)

/-- The parts of a body in the order of the search library. -/
def arrangeBody (body : Dict) : Build Dict := do
  let query ← queryPart "query" body
  let postFilter ← queryPart "post_filter" body
  let aggs ← aggsPart body
  let highlight ← highlightPart body
  let suggest ← suggestPart body
  return query ++ knnPart body ++ part "rank" body ++ postFilter ++ aggs ++ part "sort" body ++
    part "collapse" body ++ body.erase placed ++ part "_source" body ++ highlight ++ suggest ++
    part "script_fields" body

/-- The search object with the given body. -/
def ofBody (body : Value) (indices : Option (List Value)) : Build Value :=
  match body with
  | .dict entries _ => do return .search (← arrangeBody entries) indices
  | .list _ _ | .held (.list _ _) => .fail .wrongType
  | v => .fail (v.lacking "copy")

/-- The indices that a search is made on; none when the value is false as a condition. -/
def indicesOf : Value → Option (List Value)
  | .list names _ => some names
  | .tuple names => some names
  | v => if v.truthy then some [v] else none

end Search

/-- The search object of what a request builds, on the given indices. -/
def Request.toSearch (r : Request) (index : Value) : Build Value := do
  let body ← r.build
  let _ ← body.items
  Search.ofBody body (Search.indicesOf index)

end SearchDsl
