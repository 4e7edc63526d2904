import SearchDsl.Bulk
import SearchDsl.IndexConfig
import SearchDsl.Search.Body

/-!
# Multi-searches

A multi-search is a sequence of searches, each a dictionary with a header and a body.
Its payload has two lines for each search.  The body of a search may be anything that
builds something, and is resolved to what it builds; a multi-search builds its payload,
so that resolving goes through nested ones.
-/

namespace SearchDsl

/-- A multi-search under construction. -/
structure MultiSearch where
  searches : List Value
  /-- The encoding of the lines. -/
  encoding : Value

namespace MultiSearch

/-- The header of a search; one that is false as a condition is the empty dictionary. -/
def headerOf (search : Dict) : Value := (search.get "header").orEmpty

mutual

/-- What a value builds, or the value itself when it does not build anything; `called` resolves
what the functions in it answer with. -/
def resolveWith (called : Value → Build Value) : Value → Build Value
  | .search parts _ => Search.bodyDictionary parts
  | .request state withQuery _ => Request.build ⟨state, withQuery⟩
  | .boolQuery state _ => pure (BoolQuery.build ⟨state⟩)
  | .aggregations nodes last _ => pure (Aggregations.build ⟨nodes, last⟩)
  | .suggestions state _ => pure (Suggestions.build ⟨state⟩)
  | .indexConfig state _ => pure (IndexConfig.build ⟨state⟩)
  | .bulk operations encoding _ => do return .str (← Bulk.build ⟨operations, encoding⟩)
  | .multiSearch searches encoding _ => do
    let lines ← linesWith called searches
    return .str (← Ndjson.render (Serializer.ofValue encoding) (lines.map State.snapshot))
  | v => if v.holdsFunction "build" then .fail .wrongType else pure v

/-- The lines of some searches: for each its header and its resolved body.  A search that is no
dictionary is asked for both. -/
def linesWith (called : Value → Build Value) : List Value → Build (List Value)
  | [] => pure []
  | .dict search _ :: searches => do
    let body ← bodyWith called search
    return headerOf search :: body :: (← linesWith called searches)
  | search :: searches => do
    let header ← search.ask "get" (.str "header")
    let body ← called (← search.ask "get" (.str "body"))
    return header.orEmpty :: body :: (← linesWith called searches)

/-- The resolved body of a search, or null. -/
def bodyWith (called : Value → Build Value) : List (Key × Value) → Build Value
  | [] => pure .null
  | (key, v) :: entries =>
    if key.name = "body" then resolveWith called v else bodyWith called entries

end

/-- What a value builds, where functions answer with what builds something in their turn, to the
given depth. -/
def resolveWithin : (depth : Nat) → Value → Build Value
  | 0 => fun _ => .fail .tooDeep
  | depth + 1 => resolveWith (resolveWithin depth)

/-- How often functions may answer with what builds something by calling functions. -/
def deepestAnswer : Nat := 1000

/-- What a value builds, or the value itself when it does not build anything. -/
def resolve (v : Value) : Build Value := resolveWith (resolveWithin deepestAnswer) v

/-- A change of a multi-search: one more search. -/
inductive Step where
  /-- A search with header and body. -/
  | add (search : Value)
  /-- A body, resolved at once, with its header. -/
  | addQuery (body header : Value)

/-- The multi-search without searches. -/
def new (encoding : Value) : MultiSearch := ⟨[], encoding⟩

/-- The multi-search as a value. -/
def toValue (m : MultiSearch) : Value := .multiSearch m.searches m.encoding

/-- The search of a step. -/
def Step.search : Step → Build Value
  | .add search => pure search
  | .addQuery body header => do
    return .dict [("header", header.orEmpty), ("body", ← resolve body)]

/-- The multi-search after a step. -/
def apply (m : MultiSearch) (step : Step) : Build MultiSearch := do
  return ⟨m.searches ++ [← step.search], m.encoding⟩

/-- The multi-search after some steps. -/
def run (m : MultiSearch) (steps : List Step) : Build MultiSearch := steps.foldlM apply m

/-- The lines of all searches, as copies. -/
def lines (m : MultiSearch) : Build (List Value) := do
  return (← linesWith (resolveWithin deepestAnswer) m.searches).map State.snapshot

/-- The payload of a multi-search. -/
def build (m : MultiSearch) : Build String := do
  Ndjson.render (Serializer.ofValue m.encoding) (← m.lines)

end MultiSearch

end SearchDsl
