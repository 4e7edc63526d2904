import SearchDsl.Aggregations
import SearchDsl.Proofs.Contents
import SearchDsl.Proofs.View

/-!
# Steps of aggregations

What one step makes of aggregations whose nodes are dictionaries.  Adding files the node
under its name and makes the name the last one (`Aggregations.apply_add`).  Nesting files
what the callback returns below the node filed last (`Aggregations.apply_nest`), among the
child aggregations that the node has already.
-/

namespace SearchDsl

namespace Aggregations

/-! ### Children of a node -/

/-- Children can be filed below a node: what it has under their name, if anything, is a
dictionary or false as a condition. -/
def Nestable (node : Dict) : Prop :=
  ∀ v, node.find? "aggs" = some v → v.truthy = false ∨ ∃ children i, v = .dict children i

/-- The children of a node. -/
def below (node : Dict) : Dict :=
  match node.find? "aggs" with
  | some (.dict children _) => children
  | _ => []

/-- The node with more children. -/
def nested (node children : Dict) : Dict :=
  node.insert "aggs" (.dict ((below node).merge children))

theorem find?_nested (node children : Dict) :
  (nested node children).find? "aggs" = some (.dict ((below node).merge children))
  := Entries.find?_insert_text "aggs" _ node

theorem below_nested (node children : Dict) :
  below (nested node children) = (below node).merge children
  := by
  rw [below, find?_nested]

theorem nestable_nested (node children : Dict) :
  Nestable (nested node children)
  := by
  intro v hv
  rw [find?_nested] at hv
  right
  use (below node).merge children, .new
  apply (Option.some.inj hv).symm

theorem nestable_of_absent {node : Dict} (h : node.find? "aggs" = none) :
  Nestable node
  := by
  intro v hv
  rw [h] at hv
  cases hv

/-- The children are the entries that a merge starts from. -/
theorem Nestable.mapping {node : Dict} (h : Nestable node) :
  ((node.find? "aggs").getD .null).orEmpty.mapping = .ok (below node)
  := by
  unfold below
  cases hv : node.find? "aggs" with
  | none => rfl
  | some v =>
    obtain hfalse | ⟨children, i, rfl⟩ := h v hv
    · have hempty : v.orEmpty = .empty := by
        unfold Value.orEmpty Value.orElse
        rw [hfalse]
        rfl
      rw [Option.getD_some, hempty]
      split
      · rename_i children i heq
        obtain rfl := Option.some.inj heq
        cases children with
        | nil => rfl
        | cons e es => cases hfalse
      · rfl
    · cases children with
      | nil => rfl
      | cons e es => rfl

/-! ### Steps -/

theorem apply_add {es node : Dict} {i j : Identity} {a : Aggregation} {last : Value} (name : String)
    (hnode : a.node? = .ok (.dict node j)) :
  apply ⟨.dict es i, last⟩ (.add (.str name) a) =
    pure ⟨.dict (es.insert name (.dict node j)), .str name⟩
  := by
  rw [apply, hnode]
  rfl

/-- What is merged below a node are its children. -/
theorem updateIn_aggs {node : Dict} (hnode : Nestable node) (children : Dict) (j k : Identity) :
  State.updateIn (mergeBelow (.dict children k)) [.str "aggs"] (.dict node j) =
    pure (.dict (nested node children))
  := by
  have hmerge : mergeBelow (.dict children k) ((node.find? "aggs").getD .null) =
      pure (.dict ((below node).merge children)) := by
    rw [mergeBelow, hnode.mapping]
    rfl
  simp only [State.updateIn, Value.get_dict, Value.mapping_dict, Value.key_str, Build.liftM_ok,
    pure_bind, hmerge]
  rfl

theorem updateIn_below {es node children : Dict} {i j k : Identity} {name : String}
    (hfind : es.find? name = some (.dict node j)) (hnode : Nestable node) :
  State.updateIn (mergeBelow (.dict children k)) [.str name, .str "aggs"] (.dict es i) =
    pure (.dict (es.insert name (.dict (nested node children))))
  := by
  have hway : State.wayOf ((es.find? name).getD .null) = .dict node j := by
    rw [hfind]
    rfl
  rw [State.updateIn]
  · simp only [Value.get_dict, Value.mapping_dict, Value.key_str, Build.liftM_ok, pure_bind, hway,
      updateIn_aggs hnode]
  · simp

theorem apply_nest {es node children : Dict} {i j k : Identity} {name : String} {inner : Callback}
    {result : Value} (hfind : es.find? name = some (.dict node j)) (hnode : Nestable node)
    (hinner : inner new.toValue = pure result)
    (hresult : Fragment.entriesOf "sub_agg" result = .ok (.dict children k)) :
  apply ⟨.dict es i, .str name⟩ (.nest inner) =
    pure ⟨.dict (es.insert name (.dict (nested node children))), .str name⟩
  := by
  have hitems : (Value.dict children k).items = .ok (Value.keysOf children) := rfl
  have hlast : (Value.str name).isNull = false := rfl
  simp only [apply, hlast, Bool.false_eq_true, if_false, hinner, hresult, hitems, Build.liftM_ok,
    pure_bind, updateIn_below hfind hnode]

end Aggregations

end SearchDsl
