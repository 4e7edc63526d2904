import SearchDsl.Aggregations
import SearchDsl.BoolQuery
import SearchDsl.Clause
import SearchDsl.Suggestions

/-!
# Search requests

A `Request` is the body of a search.  Every step sets the value under one name, its
`Step.target`, and leaves the other names alone.  Most steps replace the value; sorting
adds to the list under `sort`, and the steps of a boolean query continue the one at the
root, or start an empty one when the root query is none.

A request that is made without query builds its state without the root query, which
remains available as a fragment.
-/

namespace SearchDsl

/-- A parameter of a search that is set to a value as it is. -/
inductive Parameter where
  | start
  | stop
  | size
  | timeout
  | trackScores
  | explain
  | minScore
  | version
  | seqNoPrimaryTerm
  | trackTotalHits
  deriving DecidableEq

/-- The name of a parameter in a request. -/
def Parameter.name : Parameter → String
  | .start => "from"
  | .stop => "to"
  | .size => "size"
  | .timeout => "timeout"
  | .trackScores => "track_scores"
  | .explain => "explain"
  | .minScore => "min_score"
  | .version => "version"
  | .seqNoPrimaryTerm => "seq_no_primary_term"
  | .trackTotalHits => "track_total_hits"

/-- The body of a search under construction. -/
structure Request where
  state : Value
  /-- The root query is built. -/
  withQuery : Bool

namespace Request

/-- A change of a request. -/
inductive Step where
  /-- Makes a clause the root query. -/
  | query (c : Clause)
  /-- Makes an empty boolean query the root query. -/
  | newBool
  /-- Changes the boolean query at the root. -/
  | bool (step : BoolQuery.Step)
  | knn (field vector options : Value)
  | sort (field direction : Value)
  | set (parameter : Parameter) (value : Value)
  /-- Selects the fields of the documents. -/
  | source (fields : Value)
  | highlight (fields options : Value)
  | aggs (inner : Callback)
  | suggest (inner : Callback)

/-- The name under which a step sets a value. -/
def Step.target : Step → String
  | .query _ => "query"
  | .newBool => "query"
  | .bool _ => "query"
  | .knn _ _ _ => "knn"
  | .sort _ _ => "sort"
  | .set parameter _ => parameter.name
  | .source _ => "_source"
  | .highlight _ _ => "highlight"
  | .aggs _ => "aggs"
  | .suggest _ => "suggest"

/-- The request with the given state; a state that is false as a condition is empty. -/
def ofState (state : Value) (withQuery : Bool) : Request := ⟨state.orEmpty, withQuery⟩

/-- The empty request, with its query. -/
def new : Request := ⟨.empty, true⟩

/-- The request as a value. -/
def toValue (r : Request) : Value := .request r.state r.withQuery

/-- The root query, or null. -/
def fragment (r : Request) : Build Value := Fragment.rootQuery r.state

/-- What the request builds. -/
def build (r : Request) : Except Fault Value := do
  let state ← if r.withQuery then pure r.state else State.without r.state [.str "query"]
  return State.snapshot state

/-- The boolean query at the root, or an empty one. -/
def rootBool (r : Request) : Except Fault BoolQuery := do
  return BoolQuery.ofState (← State.getAt .null [.str "query", .str "bool"] r.state)

/-- The fields to be returned; a single one and a truth value stay as they are. -/
def sourceFields : Value → Except Fault Value
  | .bool b => .ok (.bool b)
  | v => v.listOrText

/-- The entries that give every field its own copy of the options. -/
def highlightFields (options : Value) : List Value → Except Fault Dict
  | [] => .ok []
  | field :: fields => do
    let own ← options.toDict
    return (.text field.display, own) :: (← highlightFields options fields)

/-- The highlighting of fields.  The tags among the options are written for all of them as
well, where they are true. -/
def highlighting (fields options : Value) : Build Value := do
  let options := options.orEmpty
  let entries ← highlightFields options (← fields.items)
  let preTags ← options.whenTrue "pre_tags"
  let postTags ← options.whenTrue "post_tags"
  return .dict (("fields", .dict (Entries.ofPairs entries)) :: (preTags ++ postTags))

/-- The suggestions that the result of a callback stands for; what suggestions build is
unwrapped. -/
def suggestionsOf (result : Value) : Except Fault Value :=
  match result with
  | .dict [("suggest", inner)] _ => .ok inner
  | result => Fragment.entriesOf "suggest" result

/-- Sets the value under a name. -/
def put (r : Request) (name : String) (v : Value) : Except Fault Request := do
  return ⟨← State.set r.state name v, r.withQuery⟩

/-- The request after a step. -/
def apply (r : Request) : Step → Build Request
  | .query c => do r.put "query" (← c.fragment)
  | .newBool => r.put "query" (Fragment.bool .empty)
  | .bool step => do
    let b ← (← r.rootBool).apply step
    r.put "query" b.fragment
  | .knn field vector options => do r.put "knn" (← Clause.knnPayload field vector options)
  | .sort field direction => do
    let item := Value.single (← field.key) direction
    return ⟨← State.append r.state (.str "sort") item, r.withQuery⟩
  | .set parameter value => r.put parameter.name value
  | .source fields => do r.put "_source" (← sourceFields fields)
  | .highlight fields options => do r.put "highlight" (← highlighting fields options)
  | .aggs inner => do
    r.put "aggs" (← Fragment.entriesOf "aggs" (← inner Aggregations.new.toValue))
  | .suggest inner => do r.put "suggest" (← suggestionsOf (← inner Suggestions.new.toValue))

/-- The request after some steps. -/
def run (r : Request) (steps : List Step) : Build Request := steps.foldlM apply r

end Request

end SearchDsl
