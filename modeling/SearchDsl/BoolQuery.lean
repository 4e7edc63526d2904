import SearchDsl.Fragment

/-!
# Boolean queries

A `BoolQuery` is the payload of a boolean query.  A step adds the fragment of a callback
to the clauses of one occurrence, or sets how many optional clauses have to match.  The
steps may come in any order and number: clauses of one occurrence stay in the order in
which they were added, and the last minimum counts.
-/

namespace SearchDsl

/-- How a clause takes part in a boolean query. -/
inductive Occurrence where
  | must
  | should
  | mustNot
  | filter
  deriving DecidableEq

/-- The name of an occurrence in the payload. -/
def Occurrence.name : Occurrence → String
  | .must => "must"
  | .should => "should"
  | .mustNot => "must_not"
  | .filter => "filter"

/-- A boolean query under construction. -/
structure BoolQuery where
  /-- The payload. -/
  state : Value

namespace BoolQuery

/-- A change of a boolean query. -/
inductive Step where
  /-- Adds what the callback makes of the factory of clauses. -/
  | clause (occurrence : Occurrence) (inner : Callback)
  | minimumShouldMatch (value : Value)

/-- The boolean query with the given payload; one that is false as a condition is empty. -/
def ofState (state : Value) : BoolQuery := ⟨state.orEmpty⟩

/-- The boolean query without clauses. -/
def new : BoolQuery := ⟨.empty⟩

/-- The boolean query as a value. -/
def toValue (b : BoolQuery) : Value := .boolQuery b.state

/-- The fragment of a boolean query. -/
def fragment (b : BoolQuery) : Value := Fragment.bool b.state

/-- What the boolean query builds. -/
def build (b : BoolQuery) : Value := State.snapshot b.fragment

/-- The boolean query after a step. -/
def apply (b : BoolQuery) : Step → Build BoolQuery
  | .clause occurrence inner => do
    let clause ← inner.fragment .clauses
    return ⟨← State.append b.state (.str occurrence.name) clause⟩
  | .minimumShouldMatch value => do
    return ⟨← State.set b.state "minimum_should_match" value⟩

/-- The boolean query after some steps. -/
def run (b : BoolQuery) (steps : List Step) : Build BoolQuery := steps.foldlM apply b

end BoolQuery

end SearchDsl
