import SearchDsl.Script.Method

/-!
# Factories and functions by name

`factory?` makes the objects of this library from arguments, and `function?` gives the
functions on states, fragments and lines that scripts may call without an object.
`member` and `item` read the parts of an object.
-/

namespace SearchDsl

namespace Script

/-- Makes an operation from an outcome that calls nothing. -/
def formOf (required optional : List String) (make : Bound → Except Fault Value) : Option Method :=
  some (.of required optional fun b => make b)

/-- The items of a value that is given as a sequence of operations or searches; without one
there are none. -/
def sequenceForm (name : String) (make : List Value → Value → Value) : Option Method :=
  some ⟨{ required := [], optional := [(name, .tuple []), ("serializer", .null)] }, fun b =>
    return make (← (b.value name).items) (b.value "serializer")⟩

/-- Whether the root query is built; it is unless the argument is false as a condition. -/
def requestForm (optional : List (String × Value)) : Option Method :=
  some ⟨{ required := [], optional := optional ++ [("include_query", .bool true)] }, fun b =>
    pure (Request.ofState (b.value "state") (b.value "include_query").truthy).toValue⟩

/-- The action with the given word. -/
def actionOf (v : Value) : Except Fault Value :=
  match v.text?.bind Action.ofWord? with
  | some a => .ok (.action a)
  | none => .error .badValue

/-- The actions.  Other actions cannot be made beside them. -/
def actionForm : Option Method :=
  let named := ["module", "qualname", "type", "start", "boundary"].map fun name => (name, .null)
  some ⟨{ Signature.of ["value"] ["names"] with named }, fun b =>
    if (b.value "names").isNull then actionOf (b.value "value")
    else if (b.value "type").isNull then .fail .wrongType
    else .fail .noSuchMember⟩

/-- The factory with the given name. -/
def factory? (name : String) : Option Method :=
  match name with
  | "query" => requestForm []
  | "QueryBuilder" => requestForm [("state", .null)]
  | "BoolBuilder" => formOf [] ["state"] fun b => .ok (BoolQuery.ofState (b.value "state")).toValue
  | "ClauseBuilder" => formOf [] [] fun _ => .ok .clauses
  | "aggregations" => formOf [] [] fun _ => .ok Aggregations.new.toValue
  | "AggregationBuilder" => formOf [] ["aggs", "last"] fun b =>
      .ok (Aggregations.ofState (b.value "aggs") (b.value "last")).toValue
  | "suggest" => formOf [] [] fun _ => .ok Suggestions.new.toValue
  | "SuggesterBuilder" => formOf [] ["state"] fun b =>
      .ok (Suggestions.ofState (b.value "state")).toValue
  | "index_builder" => formOf [] [] fun _ => .ok IndexConfig.new.toValue
  | "IndexBuilder" => formOf [] ["state"] fun b =>
      .ok (IndexConfig.ofState (b.value "state")).toValue
  | "bulk" => formOf [] ["serializer"] fun b => .ok (Bulk.new (b.value "serializer")).toValue
  | "BulkBuilder" => sequenceForm "operations" fun items encoding =>
      Bulk.toValue ⟨items, encoding⟩
  | "msearch" => formOf [] ["serializer"] fun b =>
      .ok (MultiSearch.new (b.value "serializer")).toValue
  | "MSearchBuilder" => sequenceForm "searches" fun items encoding =>
      MultiSearch.toValue ⟨items, encoding⟩
  | "BulkAction" => actionForm
  | "BulkOperation" => formOf ["action", "meta"] ["body"] fun b =>
      .ok (.operation (b.value "action") (b.value "meta") (b.value "body"))
  | _ => none

/-- The steps of a path that is taken one by one from its start.  A dictionary is no path, and the
steps of a search are its hits. -/
def pathSteps (path : Value) : Except Fault (List Value) :=
  match path with
  | .dict _ _ | .held (.dict _ _) => do
    let _ ← path.entryAt (.int 0)
    .error .wrongType
  | .search parts indices => do
    let hit ← Search.hitAt parts indices 0
    return [hit, hit]
  | path => path.items

/-- The function with the given name. -/
def function? (name : String) : Option Method :=
  match name with
  | "evolve" => formOf ["state", "delta"] [] fun b =>
      State.evolve (b.value "state") (b.value "delta")
  | "without" => some ⟨{ Signature.of ["state"] [] with takesMore := true }, fun b =>
      State.without (b.value "state") b.more⟩
  | "append" => some (.of ["state", "key", "item"] [] fun b =>
      State.append (b.value "state") (b.value "key") (b.value "item"))
  | "get_in" => formOf ["state", "path"] ["default"] fun b =>
      State.getIn (b.value "state") (b.value "path") (b.value "default")
  | "update_in" => some (.of ["state", "path", "fn"] [] fun b => do
      State.updateIn (b.callback "fn") (← pathSteps (b.value "path")) (b.value "state"))
  | "assoc_in" => some (.of ["state", "path", "value"] [] fun b => do
      State.assocIn (← pathSteps (b.value "path")) (b.value "state") (b.value "value"))
  | "snapshot" => formOf ["state"] [] fun b => .ok (State.snapshot (b.value "state"))
  | "absorb" => some (.of ["result"] [] fun b => Fragment.absorb (b.value "result"))
  | "built_map" => formOf ["result", "kind"] [] fun b =>
      Fragment.entriesOf (b.value "kind").display (b.value "result")
  | "dumps_line" => some (.of ["line"] ["serializer"] fun b =>
      Ndjson.line (Serializer.ofValue (b.value "serializer")) (b.value "line"))
  | "to_ndjson" => some (.of ["lines"] ["serializer"] fun b =>
      .str <$> Ndjson.renderItems (Serializer.ofValue (b.value "serializer")) (b.value "lines"))
  | _ => none

/-- The part of an object with the given name. -/
def member (v : Value) (name : String) : Except Fault Value :=
  match v, name with
  | .bulk operations _ _, "operations" => .ok (.tuple operations)
  | .operation act _ _, "action" => .ok act
  | .operation _ header _, "meta" => .ok header
  | .operation _ _ body, "body" => .ok body
  | .operation act header body, "has_body" => .ok (.bool (Operation.hasBody ⟨act, header, body⟩))
  | .action a, "value" => .ok (.str a.word)
  | .action a, "name" => .ok (.str a.word.toUpper)
  | v, name =>
    match Search.member? v name with
    | some part => .ok part
    | none => .error .noSuchMember

/-- The item of a sequence at a position; a dictionary takes the position for a key, and the
item of a search is the search for one of its hits. -/
def item (v : Value) (index : Int) : Except Fault Value :=
  match v with
  | .search parts indices => Search.hitAt parts indices index
  | .dict _ _ | .held (.dict _ _) => v.entryAt (.int index)
  | v => do Sequence.itemAt (← v.items) index

end Script

end SearchDsl
