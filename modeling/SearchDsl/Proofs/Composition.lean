import SearchDsl.Proofs.State

/-!
# Compositions

A `Composition` is what a callback of a composing operation does: it returns something of its own
making, applies steps to a boolean query or to the root query of a request, or returns a clause
around another callback.  Every callback within it returns null, a request without a query, or
something that stands for a clause (`Composition.positions`), and the value that it ends up as is
its item.  `Composition.Holds` says where in a clause these items are: an array has one for each
call of its occurrence, in the order of the calls.
-/

namespace SearchDsl

/-! ### What a callback returns -/

/-- What a callback returns: null, a request without a query, or something that stands for a
clause. -/
inductive Returned where
  | null
  | withoutQuery
  | clause
  deriving DecidableEq

/-- The value is a dictionary, a query object, a boolean query, or a request whose root query is a
dictionary. -/
def Value.StandsForClause : Value → Prop
  | .dict _ _ => True
  | .query _ _ => True
  | .boolQuery _ _ => True
  | .request (.dict es _) _ _ => (Entries.get es "query").IsDict
  | _ => False

/-- The value is a request without a root query. -/
def Value.LacksQuery : Value → Prop
  | .request (.dict es _) _ _ => Entries.get es "query" = .null
  | _ => False

namespace Returned

/-- The value is of this sort. -/
def Of : Returned → Value → Prop
  | null, v => v = .null
  | withoutQuery, v => v.LacksQuery
  | clause, v => v.StandsForClause

/-- How often a value of this sort is reported. -/
def warnings : Returned → Nat
  | null => 1
  | _ => 0

/-- What a value of this sort is absorbed as: null, or a dictionary for a clause. -/
def Absorbed (r : Returned) (item : Value) : Prop :=
  (item = .null ↔ r ≠ clause) ∧ (r = clause → item.IsDict)

end Returned

/-! ### Trees of compositions -/

/-- Where a clause is made: by the factory, or as the root query of a request. -/
inductive Place where
  | factory
  | root (es : Dict) (withQuery : Bool)

/-- A clause that is made at a place. -/
def Place.make : Place → Clause → Build Value
  | .factory, c => c.fragment
  | .root es withQuery, c => do
    return (← (⟨.dict es, withQuery⟩ : Request).apply (.query c)).toValue

mutual

/-- What a callback of a composition does. -/
inductive Composition where
  /-- It returns something of its own making. -/
  | leaf (returned : Returned) (made : Build Value)
  /-- It applies steps to an empty boolean query. -/
  | bool (steps : List CompositionStep)
  /-- It applies steps to the root query of a request. -/
  | root (es : Dict) (withQuery : Bool) (steps : List CompositionStep)
  /-- It returns the compound clause of another callback. -/
  | compound (inner : Composition)
  | nested (place : Place) (path : Value) (inner : Composition) (options : Value)
  | constantScore (place : Place) (inner : Composition) (options : Value)
  | scriptScore (place : Place) (inner : Composition) (script options : Value)

/-- A step of a boolean query in a composition. -/
inductive CompositionStep where
  | clause (occurrence : Occurrence) (inner : Composition)
  | minimumShouldMatch (value : Value)

end

mutual

/-- What calling the callback comes to. -/
def Composition.run : Composition → Build Value
  | .leaf _ made => made
  | .bool steps => do return (← BoolQuery.new.run (stepsOf steps)).toValue
  | .root es withQuery steps => do
    return (← (⟨.dict es, withQuery⟩ : Request).run ((stepsOf steps).map .bool)).toValue
  | .compound inner => Clause.compound fun _ => inner.run
  | .nested place path inner options => place.make (.nested path (fun _ => inner.run) options)
  | .constantScore place inner options => place.make (.constantScore (fun _ => inner.run) options)
  | .scriptScore place inner script options =>
    place.make (.scriptScore (fun _ => inner.run) script options)

/-- The step that is applied. -/
def CompositionStep.step : CompositionStep → BoolQuery.Step
  | .clause occurrence inner => .clause occurrence fun _ => inner.run
  | .minimumShouldMatch value => .minimumShouldMatch value

/-- The steps that are applied. -/
def stepsOf : List CompositionStep → List BoolQuery.Step
  | [] => []
  | s :: steps => s.step :: stepsOf steps

end

namespace Composition

/-- What the callback returns.  A compound clause is null where its callback returned null or a
request without a query. -/
def returns : Composition → Returned
  | .leaf returned _ => returned
  | .compound inner => if inner.returns = .clause then .clause else .null
  | _ => .clause

end Composition

mutual

/-- What each callback within the composition returns. -/
def Composition.positions : Composition → List Returned
  | .leaf _ _ => []
  | .bool steps => positionsOf steps
  | .root _ _ steps => positionsOf steps
  | .compound inner => inner.positions ++ [inner.returns]
  | .nested _ _ inner _ => inner.positions ++ [inner.returns]
  | .constantScore _ inner _ => inner.positions ++ [inner.returns]
  | .scriptScore _ inner _ _ => inner.positions ++ [inner.returns]

/-- What each callback of the step returns, from the inside out. -/
def CompositionStep.positions : CompositionStep → List Returned
  | .clause _ inner => inner.positions ++ [inner.returns]
  | .minimumShouldMatch _ => []

/-- What each callback of the steps returns. -/
def positionsOf : List CompositionStep → List Returned
  | [] => []
  | s :: steps => s.positions ++ positionsOf steps

end

/-- Asking the options for a name reports nothing, as it is for dictionaries. -/
def Value.Quiet (options : Value) : Prop :=
  ∀ name, (options.orEmpty.get (.str name)).Reports 0 fun _ => True

mutual

/-- The leaves return what they are said to return, and report nothing themselves.  Steps at a root
come after its last reset, so that the root query has no clauses yet. -/
def Composition.Sound : Composition → Prop
  | .leaf returned made => made.Reports 0 returned.Of
  | .bool steps => StepsSound steps
  | .root es _ steps =>
    steps ≠ [] ∧ BoolQuery.ofState (Request.rootPayload (es.find? "query")) = .new ∧
      StepsSound steps
  | .compound inner => inner.Sound
  | .nested _ _ inner _ => inner.Sound
  | .constantScore _ inner _ => inner.Sound
  | .scriptScore _ inner _ options => inner.Sound ∧ options.Quiet

/-- The leaves in the step are sound. -/
def CompositionStep.Sound : CompositionStep → Prop
  | .clause _ inner => inner.Sound
  | .minimumShouldMatch _ => True

/-- The leaves in the steps are sound. -/
def StepsSound : List CompositionStep → Prop
  | [] => True
  | s :: steps => s.Sound ∧ StepsSound steps

end

/-! ### The clauses that are built -/

/-- What the step adds to the clauses of an occurrence. -/
def CompositionStep.call? (occurrence : Occurrence) : CompositionStep → Option Composition
  | .clause o inner => if o = occurrence then some inner else none
  | .minimumShouldMatch _ => none

/-- The calls for an occurrence, in order. -/
def callsOf (occurrence : Occurrence) (steps : List CompositionStep) : List Composition :=
  steps.filterMap (CompositionStep.call? occurrence)

/-- The items are those in the array of an occurrence, which is there unless there are none. -/
def ArrayOf (occurrence : Occurrence) (payload : Dict) (items : List Value) : Prop :=
  (items = [] ∧ payload.find? occurrence.name = none) ∨
    (items ≠ [] ∧ ∃ i, payload.find? occurrence.name = some (.list items i))

/-- The options override what is filed under the name. -/
def Value.Override (options : Value) (name : String) : Prop :=
  ∃ os, options.orEmpty.mapping = .ok os ∧ .text name ∈ os.names

namespace Composition

mutual

/-- The value is a clause in which every callback has its item: an array has an item for each call
of its occurrence, in order, and is there where there are calls. -/
inductive Holds : Composition → Value → Prop
  | leaf {returned made} (item : Value) : Holds (.leaf returned made) item
  | bool {steps} {es : Dict} {i j} (items : Occurrence → List Value)
      (arrays : ∀ o, ArrayOf o es (items o))
      (clauses : ∀ o, List.Forall₂ HoldsAt (callsOf o steps) (items o)) :
      Holds (.bool steps) (.dict [("bool", .dict es i)] j)
  | root {fs withQuery steps} {es : Dict} {i j} (items : Occurrence → List Value)
      (arrays : ∀ o, ArrayOf o es (items o))
      (clauses : ∀ o, List.Forall₂ HoldsAt (callsOf o steps) (items o)) :
      Holds (.root fs withQuery steps) (.dict [("bool", .dict es i)] j)
  | compound {inner item} (clause : Holds inner item) : Holds (.compound inner) item
  | nested {place path inner} {options query : Value} {es : Dict} {i j}
      (clause : HoldsAt inner query)
      (filed : ¬ options.Override "query" → es.find? "query" = some query) :
      Holds (.nested place path inner options) (.dict [("nested", .dict es i)] j)
  | constantScore {place inner} {options filter : Value} {es : Dict} {i j}
      (clause : HoldsAt inner filter)
      (filed : ¬ options.Override "filter" → es.find? "filter" = some filter) :
      Holds (.constantScore place inner options) (.dict [("constant_score", .dict es i)] j)
  | scriptScore {place inner script options} {query : Value} {es : Dict} {i j}
      (clause : HoldsAt inner query) (filed : es.find? "query" = some query) :
      Holds (.scriptScore place inner script options) (.dict [("script_score", .dict es i)] j)

/-- The value is what a callback is absorbed as: null exactly where the callback returned null or a
request without a query, and else a clause in which every callback has its item. -/
inductive HoldsAt : Composition → Value → Prop
  | intro {c item} (absorbed : c.returns.Absorbed item) (holds : Holds c item) : HoldsAt c item

end

end Composition

end SearchDsl
