import SearchDsl.IndexConfig
import SearchDsl.Proofs.Clause
import SearchDsl.Proofs.Contents
import SearchDsl.Proofs.Request.Step

/-!
# States stay dictionaries

Every operation on a state makes a dictionary, whatever it is given (`State.yields_set` and its
like).  So the state of a request, of aggregations, of suggestions and of an index configuration
is a dictionary after any steps from a dictionary on (`Request.yields_run` and its like), and so is
what a request with such a state builds (`Request.yields_build`).
-/

namespace SearchDsl

namespace Value

theorem isDict_empty : empty.IsDict := by
  use [], .new
  rfl

theorem IsDict.copy {v : Value} (h : v.IsDict) :
  v.copy.IsDict
  := by
  obtain ⟨es, i, rfl⟩ := h
  rw [copy_dict]
  exact ⟨_, _, rfl⟩

/-- What has the contents of a dictionary is one. -/
theorem IsDict.of_contents {v w : Value} (h : w.IsDict) (hvw : v.contents = w.contents) :
  v.IsDict
  := by
  obtain ⟨es, i, rfl⟩ := h
  rw [contents_dict] at hvw
  cases v with
  | dict ds j => exact ⟨ds, j, rfl⟩
  | _ => cases hvw

end Value

/-- A build that ends with a dictionary. -/
theorem Build.yields_dict (es : Dict) (i : Identity) :
  Yields Value.IsDict (pure (.dict es i))
  := by
  apply Yields.pure
  use es, i

/-! ### Operations on states -/

namespace State

theorem yields_set (state : Value) (key : Key) (v : Value) :
  Build.Yields Value.IsDict (liftM (set state key v))
  := by
  rw [set, evolve, liftM_bind]
  apply Build.Yields.bind
  intro es
  rw [liftM_bind]
  apply Build.Yields.bind
  intro ds
  apply Build.yields_dict

/-- Adding to a list makes a dictionary that is new. -/
theorem yields_append (state key item : Value) :
  Build.Yields (fun v => ∃ es : Dict, v = .dict es) (append state key item)
  := by
  apply Build.Yields.bind
  intro existing
  apply Build.Yields.bind
  intro es
  apply Build.Yields.bind
  intro items
  apply Build.Yields.bind
  intro k
  apply Build.Yields.pure
  exact ⟨_, rfl⟩

theorem yields_without (state : Value) (keys : List Value) :
  Build.Yields Value.IsDict (liftM (without state keys))
  := by
  rw [without, liftM_bind]
  apply Build.Yields.bind
  intro es
  apply Build.yields_dict

theorem yields_updateIn (f : Callback) (path : List Value) (state : Value) :
  Build.Yields Value.IsDict (updateIn f path state)
  := by
  cases path with
  | nil =>
    intro calls v hv
    cases hv
  | cons key rest =>
    -- At its last key a path files what `f` makes, and before it what comes of the rest.
    cases rest with
    | nil =>
      apply Build.Yields.bind
      intro es
      apply Build.Yields.bind
      intro existing
      apply Build.Yields.bind
      intro v
      apply Build.Yields.bind
      intro k
      apply Build.yields_dict
    | cons next rest =>
      apply Build.Yields.bind
      intro child
      apply Build.Yields.bind
      intro es
      apply Build.Yields.bind
      intro v
      apply Build.Yields.bind
      intro k
      apply Build.yields_dict

end State

/-! ### Requests -/

namespace Request

theorem yields_run (es : Dict) (withQuery : Bool) (steps : List Step) :
  Build.Yields (fun r : Request => r.state.IsDict) ((⟨.dict es, withQuery⟩ : Request).run steps)
  := by
  rw [run_eq]
  apply Build.Yields.bind
  intro ds
  apply Build.Yields.pure
  use ds, .new

theorem yields_build {r : Request} (h : r.state.IsDict) :
  Build.Yields Value.IsDict (liftM r.build)
  := by
  obtain ⟨state, withQuery⟩ := r
  cases withQuery with
  | true => apply Build.Yields.pure h.copy
  | false =>
    change Build.Yields Value.IsDict (liftM (State.without state [.str "query"] >>= fun rest =>
      pure (State.snapshot rest)))
    rw [liftM_bind]
    exact (State.yields_without state _).andThen fun _ hrest => Build.Yields.pure hrest.copy

end Request

/-! ### Aggregations -/

namespace Aggregations

theorem yields_apply (a : Aggregations) (step : Step) :
  Build.Yields (fun b : Aggregations => b.nodes.IsDict) (a.apply step)
  := by
  cases step with
  | add name node =>
    apply Build.Yields.bind
    intro v
    rw [file, liftM_bind]
    apply Build.Yields.bind
    intro key
    rw [liftM_bind]
    exact (State.yields_set a.nodes key v).andThen fun _ hnodes => Build.Yields.pure hnodes
  | nest inner =>
    unfold apply
    dsimp only
    split
    · intro calls b hb
      cases hb
    · apply Build.Yields.bind
      intro result
      apply Build.Yields.bind
      intro child
      apply Build.Yields.bind
      intro items
      exact (State.yields_updateIn _ _ _).andThen fun _ hnodes => Build.Yields.pure hnodes

theorem yields_run {a : Aggregations} (h : a.nodes.IsDict) (steps : List Step) :
  Build.Yields (fun b : Aggregations => b.nodes.IsDict) (a.run steps)
  := by
  have hstep : ∀ (b : Aggregations), ∀ step ∈ steps, b.nodes.IsDict →
      Build.Yields (fun b : Aggregations => b.nodes.IsDict) (b.apply step) :=
    fun b step _ _ => b.yields_apply step
  exact Build.Yields.foldlM hstep h

end Aggregations

/-! ### Suggestions -/

namespace Suggestions

theorem isDict_run {s t : Suggestions} {steps : List Step} (h : s.state.IsDict)
    (hrun : s.run steps = .ok t) :
  t.state.IsDict
  := by
  induction steps generalizing s with
  | nil =>
    obtain rfl : s = t := Except.ok.inj hrun
    apply h
  | cons step steps ih =>
    obtain ⟨state⟩ := s
    obtain ⟨es, i, rfl⟩ := h
    rw [run, List.foldlM_cons, apply] at hrun
    cases hkey : step.name.key with
    | error fault =>
      rw [hkey] at hrun
      cases hrun
    | ok key =>
      rw [hkey] at hrun
      apply ih _ hrun
      exact ⟨_, _, rfl⟩

end Suggestions

/-! ### Index configurations -/

namespace IndexConfig

theorem yields_apply (c : IndexConfig) (step : Step) :
  Build.Yields (fun d : IndexConfig => d.state.IsDict) (c.apply step)
  := by
  match step with
  | .mappings value =>
    exact (State.yields_set c.state _ value).andThen fun _ hstate => Build.Yields.pure hstate
  | .settings value =>
    exact (State.yields_set c.state _ value).andThen fun _ hstate => Build.Yields.pure hstate
  | .alias name options =>
    apply Build.Yields.bind
    intro options
    exact (State.yields_updateIn _ _ _).andThen fun _ hstate => Build.Yields.pure hstate

theorem yields_run {c : IndexConfig} (h : c.state.IsDict) (steps : List Step) :
  Build.Yields (fun d : IndexConfig => d.state.IsDict) (c.run steps)
  := by
  have hstep : ∀ (d : IndexConfig), ∀ step ∈ steps, d.state.IsDict →
      Build.Yields (fun d : IndexConfig => d.state.IsDict) (d.apply step) :=
    fun d step _ _ => d.yields_apply step
  exact Build.Yields.foldlM hstep h

end IndexConfig

end SearchDsl
