import SearchDsl.Fragment

/-!
# Aggregations

`Aggregations` are nodes filed under names, together with the name that was filed last.
`Aggregations.Step.add` files a node, and `Aggregations.Step.nest` runs a callback on
aggregations of its own and merges what it returns into the `aggs` of the node filed
last.  Last refers to the order of the calls and not to the order of the names: filing
under a name again replaces the node in place and makes the name the last one.
-/

namespace SearchDsl

/-- One aggregation. -/
inductive Aggregation where
  /-- A complete node. -/
  | node (v : Value)
  /-- A node of any type with a field, which is left out when it is null, and options. -/
  | bucket (type field : Value) (options : Dict)
  /-- A node of a known type on a field. -/
  | onField (type : String) (field options : Value)
  /-- The documents of a bucket. -/
  | topHits (options : Value)

/-- The node of an aggregation. -/
def Aggregation.node? : Aggregation → Except Fault Value
  | .node v => .ok v
  | .bucket type field options => do
    let start : Dict := if field.isNull then [] else [("field", field)]
    return .single (← type.key) (.dict (Entries.merge start options))
  | .onField type field options => do
    return .single type (← Value.withOptions [("field", field)] options)
  | .topHits options => do return .single "top_hits" (← options.orEmpty.toDict)

/-- Named aggregations under construction. -/
structure Aggregations where
  /-- The nodes, filed under their names. -/
  nodes : Value
  /-- The name filed last, or null. -/
  last : Value

namespace Aggregations

/-- A change of the aggregations. -/
inductive Step where
  | add (name : Value) (a : Aggregation)
  /-- Adds what the callback returns to the node filed last. -/
  | nest (inner : Callback)

/-- Aggregations with the given nodes; nodes that are false as a condition are none. -/
def ofState (nodes last : Value) : Aggregations := ⟨nodes.orEmpty, last⟩

/-- No aggregations. -/
def new : Aggregations := ⟨.empty, .null⟩

/-- The aggregations as a value. -/
def toValue (a : Aggregations) : Value := .aggregations a.nodes a.last

/-- What the aggregations build. -/
def build (a : Aggregations) : Value := State.snapshot a.nodes

/-- Files a node under a name. -/
def file (a : Aggregations) (name node : Value) : Except Fault Aggregations := do
  return ⟨← State.set a.nodes (← name.key) node, name⟩

/-- The nodes below `existing`, or none, with those of `child` filed among them. -/
def mergeBelow (child existing : Value) : Build Value := do
  Value.extend (← existing.orEmpty.mapping) child

/-- The aggregations after a step. -/
def apply (a : Aggregations) : Step → Build Aggregations
  | .add name node => do a.file name (← node.node?)
  | .nest inner =>
    if a.last.isNull then .fail .nothingToNestUnder
    else do
      let child ← Fragment.entriesOf "sub_agg" (← inner new.toValue)
      let _ ← child.items
      let nodes ← State.updateIn (mergeBelow child) [a.last, .str "aggs"] a.nodes
      return ⟨nodes, a.last⟩

/-- The aggregations after some steps. -/
def run (a : Aggregations) (steps : List Step) : Build Aggregations := steps.foldlM apply a

end Aggregations

end SearchDsl
