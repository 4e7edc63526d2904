import SearchDsl.Proofs.Build
import SearchDsl.Request

/-!
# Steps that are settled

What a step comes to may depend on what the callbacks that it is given come to, and a value may be
asked for its entries, which is a call as well.  Where nothing is changed in place, it depends on
nothing else (`Request.Step.Settled`), as long as the same is true of its callbacks.
-/

namespace SearchDsl

open Build

/-! ### Views -/

namespace Value

theorem settled_ask (v : Value) (operation : String) (argument : Value) :
  Settled (v.ask operation argument)
  := by
  unfold ask
  split
  · apply settled_call
  · apply Settled.fail

theorem settled_get (v key : Value) :
  Settled (v.get key)
  := by
  unfold get
  split
  · apply (Settled.lift _).bind
    intro k
    apply Settled.pure
  · apply settled_ask

theorem settled_whenTrue (v : Value) (name : String) :
  Settled (v.whenTrue name)
  := by
  apply (settled_get v _).bind
  intro found
  split
  · apply (Settled.lift _).bind
    intro entry
    apply Settled.pure
  · apply Settled.pure

theorem settled_whenPresent (v : Value) (name : String) :
  Settled (v.whenPresent name)
  := by
  apply (settled_get v _).bind
  intro found
  split
  · apply Settled.pure
  · apply (Settled.lift _).bind
    intro entry
    apply Settled.pure

end Value

theorem State.settled_append (state key item : Value) :
  Settled (State.append state key item)
  := by
  apply (Value.settled_get state key).bind
  intro existing
  apply (Settled.lift _).bind
  intro es
  apply (Settled.lift _).bind
  intro items
  apply (Settled.lift _).bind
  intro k
  apply Settled.pure

/-! ### Clauses -/

/-- The callback is settled, whatever it is called with. -/
def Callback.Settled (f : Callback) : Prop := ∀ argument, Build.Settled (f argument)

theorem Callback.settled_call (f : Value) :
  Callback.Settled (Build.call f)
  := Build.settled_call f

theorem Fragment.settled_absorb (v : Value) :
  Settled (absorb v)
  := by
  unfold absorb
  split
  · apply Settled.warn.bind
    intro _
    apply Settled.pure
  · apply Settled.lift
  · apply Value.settled_get
  · apply Settled.pure
  · split
    · apply Settled.fail
    · apply Settled.pure

theorem Callback.Settled.fragment {f : Callback} (h : f.Settled) (argument : Value) :
  Build.Settled (f.fragment argument)
  := (h argument).bind Fragment.settled_absorb

namespace Clause

theorem settled_knnPayload (field vector options : Value) :
  Settled (knnPayload field vector options)
  := by
  apply (Settled.lift _).bind
  intro items
  apply (Value.settled_get options _).bind
  intro k
  apply (Value.settled_get options _).bind
  intro candidates
  apply (Value.settled_whenTrue options _).bind
  intro filter
  apply (Value.settled_whenTrue options _).bind
  intro boost
  apply (Value.settled_whenPresent options _).bind
  intro similarity
  apply Settled.pure

theorem settled_scriptPayload (options : Value) :
  Settled (scriptPayload options)
  := by
  apply (Value.settled_get options _).bind
  intro source
  apply (Settled.lift _).bind
  intro language
  apply (Value.settled_whenTrue options _).bind
  intro params
  apply Settled.pure

theorem settled_leaf (l : Leaf) :
  Settled l.fragment
  := by
  cases l with
  | script options =>
    apply (settled_scriptPayload options).bind
    intro script
    apply (Value.settled_whenTrue options _).bind
    intro boost
    apply Settled.pure
  | _ =>
    unfold Leaf.fragment
    repeat first
      | apply Settled.lift
      | apply Settled.pure
      | apply (Settled.lift _).bind
        intro _

/-- The callbacks of a clause are settled. -/
def HasSettled : Clause → Prop
  | .leaf _ => True
  | .nested _ inner _ => inner.Settled
  | .constantScore inner _ => inner.Settled
  | .scriptScore inner _ _ => inner.Settled

theorem settled_fragment {c : Clause} (h : c.HasSettled) :
  Settled c.fragment
  := by
  cases c with
  | leaf l => apply settled_leaf
  | nested path inner options =>
    apply (Callback.Settled.fragment h _).bind
    intro query
    apply (Settled.lift _).bind
    intro payload
    apply Settled.pure
  | constantScore inner options =>
    apply (Callback.Settled.fragment h _).bind
    intro filter
    apply (Settled.lift _).bind
    intro payload
    apply Settled.pure
  | scriptScore inner script options =>
    apply (Callback.Settled.fragment h _).bind
    intro query
    apply (settled_scriptPayload script).bind
    intro payload
    apply (Value.settled_whenPresent _ _).bind
    intro minScore
    apply (Value.settled_whenTrue _ _).bind
    intro boost
    apply Settled.pure

end Clause

/-! ### Steps -/

/-- The callbacks of a step are settled. -/
def BoolQuery.Step.HasSettled : BoolQuery.Step → Prop
  | .clause _ inner => inner.Settled
  | .minimumShouldMatch _ => True

theorem BoolQuery.settled_apply (b : BoolQuery) {step : Step} (h : step.HasSettled) :
  Settled (b.apply step)
  := by
  cases step with
  | clause occurrence inner =>
    apply (Callback.Settled.fragment h _).bind
    intro clause
    apply (State.settled_append _ _ _).bind
    intro state
    apply Settled.pure
  | minimumShouldMatch value =>
    apply (Settled.lift _).bind
    intro state
    apply Settled.pure

namespace Request

/-- The callbacks of a step are settled. -/
def Step.HasSettled : Step → Prop
  | .query c => c.HasSettled
  | .bool step => step.HasSettled
  | .aggs inner => inner.Settled
  | .suggest inner => inner.Settled
  | _ => True

theorem settled_highlighting (fields options : Value) :
  Settled (highlighting fields options)
  := by
  apply (Settled.lift _).bind
  intro items
  apply (Settled.lift _).bind
  intro entries
  apply (Value.settled_whenTrue _ _).bind
  intro preTags
  apply (Value.settled_whenTrue _ _).bind
  intro postTags
  apply Settled.pure

theorem settled_apply (r : Request) {step : Step} (h : step.HasSettled) :
  Settled (r.apply step)
  := by
  cases step with
  | query c =>
    apply (Clause.settled_fragment h).bind
    intro fragment
    apply Settled.lift
  | newBool => apply Settled.lift
  | bool step =>
    apply (Settled.lift _).bind
    intro b
    apply (BoolQuery.settled_apply b h).bind
    intro b'
    apply Settled.lift
  | knn field vector options =>
    apply (Clause.settled_knnPayload field vector options).bind
    intro payload
    apply Settled.lift
  | sort field direction =>
    apply (Settled.lift _).bind
    intro key
    apply (State.settled_append _ _ _).bind
    intro state
    apply Settled.pure
  | set parameter value => apply Settled.lift
  | source fields =>
    apply (Settled.lift _).bind
    intro selected
    apply Settled.lift
  | highlight fields options =>
    apply (settled_highlighting fields options).bind
    intro payload
    apply Settled.lift
  | aggs inner =>
    apply (h _).bind
    intro result
    apply (Settled.lift _).bind
    intro entries
    apply Settled.lift
  | suggest inner =>
    apply (h _).bind
    intro result
    apply (Settled.lift _).bind
    intro entries
    apply Settled.lift

end Request

end SearchDsl
