import SearchDsl.Proofs.BoolQuery

/-!
# Steps of a request

A step looks at the value under its target and files another one there; whatever else is in the
request neither matters to it nor changes.  `Request.Step.value` is the value that a step
files, given the one that it finds, and `Request.apply_eq` says that this is all that a step
does.  A run is a run of such filings (`Request.run_eq`).
-/

namespace SearchDsl

namespace Request

/-! ### One step -/

/-- The payload of the boolean query that a root query is, or null. -/
def rootPayload : Option Value → Value
  | some (.dict es _) => (Entries.find? "bool" es).getD .null
  | _ => .null

/-- The value that a step files under its target, where `old` is what it finds there. -/
def Step.value (old : Option Value) : Step → Build Value
  | .query c => c.fragment
  | .newBool => pure (Fragment.bool .empty)
  | .bool step => do return (← (BoolQuery.ofState (rootPayload old)).apply step).fragment
  | .knn field vector options => Clause.knnPayload field vector options
  | .sort field direction => do
    let key ← field.key
    let items ← ((old.getD .null).orElse (.list [])).items
    return .list (items ++ [.single key direction])
  | .set _ value => pure value
  | .source fields => sourceFields fields
  | .highlight fields options => highlighting fields options
  | .aggs inner => do Fragment.entriesOf "aggs" (← inner Aggregations.new.toValue)
  | .suggest inner => do suggestionsOf (← inner Suggestions.new.toValue)

theorem put_dict (es : Dict) (i : Identity) (withQuery : Bool) (name : String) (v : Value) :
  put ⟨.dict es i, withQuery⟩ name v = .ok ⟨.dict (es.insert (.text name) v), withQuery⟩
  := rfl

theorem rootBool_dict (es : Dict) (i : Identity) (withQuery : Bool) :
  rootBool ⟨.dict es i, withQuery⟩ = .ok (BoolQuery.ofState (rootPayload (es.find? "query")))
  := by
  cases h : es.find? "query" with
  | none =>
    rw [rootBool, getAt_missing h]
    rfl
  | some v =>
    rw [rootBool, getAt_cons h]
    cases v with
    | dict ds j =>
      cases hbool : Entries.find? "bool" ds with
      | none =>
        rw [getAt_missing hbool, rootPayload, hbool]
        rfl
      | some payload =>
        rw [getAt_cons hbool, rootPayload, hbool]
        rfl
    | _ => rfl

/-- A step files its value under its target and does nothing else. -/
theorem apply_eq (es : Dict) (i : Identity) (withQuery : Bool) (step : Step) :
  (⟨.dict es i, withQuery⟩ : Request).apply step = do
    return ⟨.dict (es.insert (.text step.target) (← step.value (es.find? step.target))), withQuery⟩
  := by
  cases step with
  | query c => rfl
  | newBool => rfl
  | bool step =>
    simp only [apply, Step.value, rootBool_dict, Build.liftM_ok, pure_bind, bind_assoc, put_dict]
    rfl
  | knn field vector options => rfl
  | sort field direction =>
    simp only [apply, Step.value, Step.target, State.append, Value.get_dict, Value.mapping_dict,
      Value.key_str, Build.liftM_ok, pure_bind, bind_assoc]
  | set parameter value => rfl
  | source fields => rfl
  | highlight fields options => rfl
  | aggs inner =>
    simp only [apply, Step.value, Step.target, put_dict, Build.liftM_ok, bind_assoc]
  | suggest inner =>
    simp only [apply, Step.value, Step.target, put_dict, Build.liftM_ok, bind_assoc]

/-- A step continues the boolean query that the root query is, or an empty one. -/
theorem apply_bool_of_root {es : Dict} {parts : List BoolQuery.Part}
    (h : BoolQuery.ofState (rootPayload (es.find? "query")) = ⟨.dict (BoolQuery.payload parts)⟩)
    (i : Identity) (withQuery : Bool) (step : BoolQuery.Step) :
  (⟨.dict es i, withQuery⟩ : Request).apply (.bool step) = do
    return ⟨.dict (es.insert (.text "query")
      (Fragment.bool (.dict (BoolQuery.payload (parts ++ [← step.part]))))), withQuery⟩
  := by
  have htarget : (Step.bool step).target = "query" := rfl
  rw [apply_eq, htarget, Step.value, h, BoolQuery.apply_eq]
  simp only [bind_assoc, pure_bind]
  rfl

/-! ### Runs -/

/-- The entries of a request after a step. -/
def file (es : Dict) (step : Step) : Build Dict := do
  return es.insert (.text step.target) (← step.value (es.find? step.target))

theorem foldlM_file_cons (es : Dict) (step : Step) (steps : List Step) :
  (step :: steps).foldlM file es = step.value (es.find? step.target) >>= fun v =>
    steps.foldlM file (es.insert (.text step.target) v)
  := by
  rw [List.foldlM_cons, file]
  simp only [bind_assoc, pure_bind]

/-- A run files one step after the other. -/
theorem run_eq (es : Dict) (withQuery : Bool) (steps : List Step) :
  (⟨.dict es, withQuery⟩ : Request).run steps = do
    return ⟨.dict (← steps.foldlM file es), withQuery⟩
  := by
  induction steps generalizing es with
  | nil => simp [run]
  | cons step steps ih =>
    unfold run at ih ⊢
    rw [foldlM_file_cons, List.foldlM_cons, apply_eq]
    simp only [bind_assoc, pure_bind, ih]

/-- What comes of a run is what was there before with an entry filed for each step, in order. -/
theorem yields_filed (es : Dict) (steps : List Step) :
  Build.Yields
    (fun ds => ∃ ps : Dict, ds = Entries.merge es ps ∧
      ps.map Prod.fst = steps.map fun step => Key.text step.target)
    (steps.foldlM file es)
  := by
  induction steps generalizing es with
  | nil =>
    apply Build.Yields.pure
    use []
    exact ⟨rfl, rfl⟩
  | cons step steps ih =>
    rw [foldlM_file_cons]
    apply Build.Yields.bind
    intro v calls ds hds
    obtain ⟨ps, hps, hkeys⟩ := ih _ calls ds hds
    use (.text step.target, v) :: ps
    constructor
    · apply hps
    · rw [List.map_cons, List.map_cons, hkeys]

end Request

end SearchDsl
