import SearchDsl.Proofs.Aggregations.Step
import SearchDsl.Proofs.Build

/-!
# The name filed last

Whatever aggregations are given, each step files one node and goes on with one name.  Adding
files the node that it is given and makes its name the last one (`Aggregations.apply_add_eq`);
nesting files the node that was filed last again, with its children in it, and keeps the name
(`Aggregations.apply_nest_eq`).  So the name filed last is null as long as nothing is filed, and is
the name of an entry from the first addition on (`Aggregations.Tracked`).
-/

namespace SearchDsl

namespace Aggregations

/-- The nodes, filed under their names. -/
def entries (a : Aggregations) : Dict :=
  match a.nodes with
  | .dict es _ => es
  | _ => []

/-- The node that was filed last. -/
def lastNode? (a : Aggregations) : Option Value :=
  match a.last.key with
  | .ok key => a.entries.find? key.name
  | .error _ => none

/-! ### What a step files -/

theorem apply_add_eq (es : Dict) (i : Identity) (last name : Value) (a : Aggregation) :
  apply ⟨.dict es i, last⟩ (.add name a) = do
    let v ← a.node?
    let key ← name.key
    return ⟨.dict (es.insert key v), name⟩
  := by
  cases ha : a.node? with
  | error fault =>
    rw [apply, ha]
    rfl
  | ok v =>
    rw [apply, ha]
    cases hkey : name.key with
    | error fault =>
      simp only [Build.liftM_ok, pure_bind, file, hkey]
      rfl
    | ok key =>
      simp only [Build.liftM_ok, pure_bind, file, hkey]
      rfl

theorem apply_nest_eq {last : Value} {key : Key} (hlast : last.isNull = false)
    (hkey : last.key = .ok key) (es : Dict) (i : Identity) (inner : Callback) :
  apply ⟨.dict es i, last⟩ (.nest inner) = do
    let child ← Fragment.entriesOf "sub_agg" (← inner new.toValue)
    let _ ← child.items
    let v ← State.updateIn (mergeBelow child) [.str "aggs"]
      (State.wayOf ((es.find? key.name).getD .null))
    return ⟨.dict (es.insert key v), last⟩
  := by
  have hget : (Value.dict es i).get last = pure ((es.find? key.name).getD .null) := by
    rw [Value.get, hkey]
    rfl
  simp only [apply, hlast, Bool.false_eq_true, if_false, State.updateIn, hget, hkey,
    Value.mapping_dict, Build.liftM_ok, pure_bind, bind_assoc]

/-! ### What is filed last -/

/-- Nothing is filed and the name filed last is null, or some nodes are filed, and the name filed
last, which has the property `P`, is the name of one of them. -/
inductive Tracked (P : Value → Prop) : Aggregations → Prop
  | none : Tracked P new
  | some {es : Dict} {last : Value} {key : Key} (distinct : es.Distinct) (named : P last)
      (hkey : last.key = .ok key) (filed : Named.name key ∈ es.names) : Tracked P ⟨.dict es, last⟩

/-- The name under which a step adds something has the property. -/
def Step.Adds (P : Value → Prop) : Step → Prop
  | .add name _ => P name
  | .nest _ => True

variable {P : Value → Prop}

theorem Tracked.nodes {a : Aggregations} (h : Tracked P a) :
  a = ⟨.dict a.entries, a.last⟩ ∧ a.entries.Distinct
  := by
  cases h with
  | none => exact ⟨rfl, List.nodup_nil⟩
  | some distinct => exact ⟨rfl, distinct⟩

theorem yields_tracked_add {es : Dict} (h : es.Distinct) (i : Identity) (last : Value)
    {name : Value} (hname : P name) (a : Aggregation) :
  Build.Yields (Tracked P) (apply ⟨.dict es i, last⟩ (.add name a))
  := by
  rw [apply_add_eq]
  apply Build.Yields.bind
  intro v
  refine (Build.Yields.lift fun key hkey => hkey).andThen ?_
  intro key hkey
  apply Build.Yields.pure
  apply Tracked.some (h.insert key v) hname hkey (Entries.name_mem_insert key v es)

theorem yields_tracked_nest {a : Aggregations} (h : Tracked P a) (inner : Callback) :
  Build.Yields (Tracked P) (a.apply (.nest inner))
  := by
  cases h with
  | none => apply Build.Yields.fail
  | @some es last key distinct named hkey filed =>
    cases hlast : last.isNull with
    | true =>
      rw [apply, if_pos hlast]
      apply Build.Yields.fail
    | false =>
      rw [apply_nest_eq hlast hkey]
      apply Build.Yields.bind
      intro result
      apply Build.Yields.bind
      intro child
      apply Build.Yields.bind
      intro items
      apply Build.Yields.bind
      intro v
      apply Build.Yields.pure
      apply Tracked.some (distinct.insert key v) named hkey (Entries.name_mem_insert key v es)

/-- What is filed last is tracked from step to step. -/
theorem yields_tracked_apply {a : Aggregations} (h : Tracked P a) {step : Step}
    (hstep : step.Adds P) :
  Build.Yields (Tracked P) (a.apply step)
  := by
  cases step with
  | add name node =>
    obtain ⟨heq, hdistinct⟩ := h.nodes
    rw [heq]
    apply yields_tracked_add hdistinct _ _ hstep
  | nest inner => apply yields_tracked_nest h

theorem yields_tracked_run {a : Aggregations} (h : Tracked P a) {steps : List Step}
    (hsteps : ∀ step ∈ steps, step.Adds P) :
  Build.Yields (Tracked P) (a.run steps)
  := by
  have hstep : ∀ a, ∀ step ∈ steps, Tracked P a → Build.Yields (Tracked P) (a.apply step) :=
    fun a step hmem ha => yields_tracked_apply ha (hsteps step hmem)
  exact Build.Yields.foldlM hstep h

end Aggregations

end SearchDsl
