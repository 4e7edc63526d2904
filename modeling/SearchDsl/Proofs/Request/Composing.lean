import SearchDsl.Proofs.Aggregations.Last
import SearchDsl.Proofs.State

/-!
# Builders and what they build

The callback of `aggs`, `suggest` or `sub_agg` may return aggregations or suggestions themselves
or what these build, and the effect is the same (`Request.composed_alike`).  What suggestions build
is wrapped once and unwrapped once, also where there are none and where the only one is called
`suggest`; what aggregations build is a copy of their nodes, which is merged below a node as the
nodes are.

No other value but a dictionary stands for named entries, and is refused.  But a value that answers
under `to_map` with a function is taken for a builder, whatever it is: the function is called without
its argument, and that is another fault (`Request.not_refused_as_no_map`).
-/

namespace SearchDsl

/-- The value is a text. -/
def Value.IsText (v : Value) : Prop := ∃ s, v = .str s

/-! ### Values that stand for named entries -/

namespace Fragment

/-- The value is a dictionary, aggregations or suggestions. -/
def NamesEntries : Value → Prop
  | .dict _ _ => True
  | .aggregations _ _ _ => True
  | .suggestions _ _ => True
  | _ => False

/-- The cause for which an operation fails with a value that stands for no entries: it refuses the
value, or calls a function of it without an argument. -/
def refusal (operation : String) (v : Value) : Fault :=
  if v.holdsFunction "to_map" then .wrongType else .notComposable operation v.kind

theorem entriesOf_of_not_namesEntries {v : Value} (h : ¬ NamesEntries v) (operation : String) :
  entriesOf operation v = .error (refusal operation v)
  := by
  unfold entriesOf refusal
  split
  · exact absurd trivial h
  · exact absurd trivial h
  · exact absurd trivial h
  · split
    · rfl
    · rfl

theorem suggestionsOf_of_not_namesEntries {v : Value} (h : ¬ NamesEntries v) :
  Request.suggestionsOf v = .error (refusal "suggest" v)
  := by
  rw [← entriesOf_of_not_namesEntries h, Request.suggestionsOf]
  rintro inner i rfl
  exact h trivial

end Fragment

/-! ### Aggregations under texts -/

namespace Aggregations

/-- The nodes are filed under texts, and so is the one that was filed last, if any. -/
def UnderTexts (a : Aggregations) : Prop :=
  ∃ es : Dict, a.nodes = .dict es ∧ es.Texts ∧ (a.last = .null ∨ a.last.IsText)

theorem underTexts_new : UnderTexts new := by
  use [], rfl, Entries.texts_nil
  left
  rfl

/-- After a step under a text there is a node that was filed last. -/
theorem yields_underTexts_apply {a : Aggregations} (h : a.UnderTexts) {step : Step}
    (hstep : step.Adds Value.IsText) :
  Build.Yields (fun b : Aggregations => b.UnderTexts ∧ b.last.IsText) (a.apply step)
  := by
  obtain ⟨nodes, last⟩ := a
  obtain ⟨es, rfl, htexts, hlast⟩ := h
  cases step with
  | add name node =>
    obtain ⟨s, rfl⟩ := hstep
    rw [apply_add_eq]
    apply Build.Yields.bind
    intro v
    apply Build.Yields.pure
    constructor
    · use es.insert (.text s) v, rfl, htexts.insert s v
      right
      use s
    · use s
  | nest inner =>
    obtain rfl | ⟨s, rfl⟩ := hlast
    · apply Build.Yields.fail
    · rw [apply_nest_eq rfl (Value.key_str s)]
      apply Build.Yields.bind
      intro result
      apply Build.Yields.bind
      intro child
      apply Build.Yields.bind
      intro items
      apply Build.Yields.bind
      intro v
      apply Build.Yields.pure
      constructor
      · use es.insert (.text s) v, rfl, htexts.insert s v
        right
        use s
      · use s

theorem yields_underTexts_run {a : Aggregations} (h : a.UnderTexts) {steps : List Step}
    (hsteps : ∀ step ∈ steps, step.Adds Value.IsText) :
  Build.Yields UnderTexts (a.run steps)
  := by
  have hstep : ∀ b, ∀ step ∈ steps, UnderTexts b → Build.Yields UnderTexts (b.apply step) :=
    fun b step hmem hb => (yields_underTexts_apply hb (hsteps step hmem)).mono fun _ hc => hc.1
  exact Build.Yields.foldlM hstep h

/-- After an addition there is a node that was filed last. -/
theorem yields_last_run {steps : List Step} (hsteps : ∀ step ∈ steps, step.Adds Value.IsText)
    (hne : steps ≠ []) :
  Build.Yields (fun a : Aggregations => a.UnderTexts ∧ a.last.IsText) (new.run steps)
  := by
  cases steps with
  | nil => exact absurd rfl hne
  | cons first steps =>
    obtain ⟨hfirst, hrest⟩ := List.forall_mem_cons.1 hsteps
    have hstep : ∀ b : Aggregations, ∀ step ∈ steps, b.UnderTexts ∧ b.last.IsText →
        Build.Yields (fun c : Aggregations => c.UnderTexts ∧ c.last.IsText) (b.apply step) :=
      fun b step hmem hb => yields_underTexts_apply hb.1 (hrest step hmem)
    rw [run, List.foldlM_cons]
    exact (yields_underTexts_apply underTexts_new hfirst).andThen
      fun b hb => Build.Yields.foldlM hstep hb

/-! ### Nesting aggregations or what they build -/

/-- The same name filed last, and nodes of the same contents. -/
def Alike (a b : Aggregations) : Prop := a.nodes.contents = b.nodes.contents ∧ a.last = b.last

/-- Children of the same contents are merged below whatever there is in the same way. -/
theorem matches_updateIn_aggs {children others : Dict} (h : children.Alike others) (i j : Identity)
    (node : Value) :
  Build.Matches (fun v w => v.contents = w.contents)
    (State.updateIn (mergeBelow (.dict children i)) [.str "aggs"] node)
    (State.updateIn (mergeBelow (.dict others j)) [.str "aggs"] node)
  := by
  apply Build.Matches.bind_same
  intro es
  apply Build.Matches.bind_same
  intro existing
  have hmerged : Build.Matches (fun v w => v.contents = w.contents)
      (mergeBelow (.dict children i) existing) (mergeBelow (.dict others j) existing) := by
    apply Build.Matches.bind_same
    intro start
    apply Build.Matches.pure
    apply ((Entries.Alike.refl start).merge h).contents_dict
  apply hmerged.bind
  intro v w hvw
  apply Build.Matches.bind_same
  intro key
  apply Build.Matches.pure
  apply ((Entries.Alike.refl es).insert key hvw).contents_dict

theorem matches_nest {a r : Aggregations} (hr : r.UnderTexts) (ha : a.UnderTexts) :
  Build.Matches Alike (r.apply (.nest fun _ => pure a.toValue))
    (r.apply (.nest fun _ => pure a.build))
  := by
  obtain ⟨nodes, last⟩ := r
  obtain ⟨es, rfl, -, rfl | ⟨s, rfl⟩⟩ := hr
  · apply Build.Matches.fail
  · obtain ⟨cs, hcs, htexts, -⟩ := ha
    have hbuilt : ∃ i, a.build =
        .dict (cs.map fun e => (e.1.mapObject Value.copy, e.2.copy)) i := by
      use Identity.copied .new
      rw [build, hcs]
      apply Value.copy_dict
    obtain ⟨i, hbuilt⟩ := hbuilt
    have hnodes : Fragment.entriesOf "sub_agg" a.toValue = .ok (.dict cs) := by
      rw [toValue, hcs]
      rfl
    have hdict : ∀ (ds : Dict) (j : Identity),
        Fragment.entriesOf "sub_agg" (.dict ds j) = .ok (.dict ds j) := fun _ _ => rfl
    have hitems : ∀ (ds : Dict) (j : Identity),
        (Value.dict ds j).items = .ok (Value.keysOf ds) := fun _ _ => rfl
    rw [apply_nest_eq rfl (Value.key_str s), apply_nest_eq rfl (Value.key_str s)]
    simp only [pure_bind, hnodes, hbuilt, hdict, hitems, Build.liftM_ok]
    apply (matches_updateIn_aggs htexts.copy_alike.symm _ i _).bind
    intro v w hvw
    apply Build.Matches.pure
    use ((Entries.Alike.refl es).insert (.text s) hvw).contents_dict .new .new

/-- Where a node was filed last, nesting refuses a value that stands for no entries. -/
theorem apply_nest_of_not_namesEntries {r : Aggregations} (hr : r.UnderTexts)
    (hlast : r.last.IsText) {v : Value} (h : ¬ Fragment.NamesEntries v) :
  r.apply (.nest fun _ => pure v) = .fail (Fragment.refusal "sub_agg" v)
  := by
  obtain ⟨nodes, last⟩ := r
  obtain ⟨es, rfl, -⟩ := hr
  obtain ⟨name, rfl⟩ := hlast
  rw [apply_nest_eq rfl (Value.key_str name), pure_bind,
    Fragment.entriesOf_of_not_namesEntries h]
  rfl

end Aggregations

/-! ### Documents -/

namespace Request

/-- What a request builds after a step. -/
def buildAfter (q : Request) (step : Step) : Build Value := do (← q.apply step).build

theorem build_eq (es : Dict) (i : Identity) (withQuery : Bool) :
  build ⟨.dict es i, withQuery⟩ =
    .ok (Value.copy (if withQuery then .dict es i else .dict (es.erase [.text "query"])))
  := by
  cases withQuery
  all_goals rfl

/-- With and without its query, a request builds a copy of what is filed under another name. -/
theorem get_build {name : String} (hname : name ≠ "query") {es : Dict} {v : Value}
    (h : es.find? name = some v) (i : Identity) (withQuery : Bool) :
  ∃ d, build ⟨.dict es i, withQuery⟩ = .ok d ∧ d.get (.str name) = pure v.copy
  := by
  cases withQuery with
  | true =>
    use Value.copy (.dict es i), rfl
    rw [Value.copy_dict, Value.get_dict, Entries.find?_copy_text, h]
    rfl
  | false =>
    have hquery : Name.text name ∉ [Name.text "query"] := by
      rw [List.mem_singleton]
      intro heq
      apply hname (Name.text.inj heq)
    use Value.copy (.dict (es.erase [.text "query"])), rfl
    rw [Value.copy_dict, Value.get_dict, Entries.find?_copy_text,
      Entries.find?_erase_of_notMem hquery, h]
    rfl

theorem contents_build {es ds : Dict} (h : es.Alike ds) (i j : Identity) (withQuery : Bool)
    {d d' : Value} (hd : build ⟨.dict es i, withQuery⟩ = .ok d)
    (hd' : build ⟨.dict ds j, withQuery⟩ = .ok d') :
  d.contents = d'.contents
  := by
  rw [build_eq] at hd hd'
  rw [← Except.ok.inj hd, ← Except.ok.inj hd', Value.contents_copy, Value.contents_copy]
  cases withQuery with
  | true => apply h.contents_dict
  | false => apply (h.erase _).contents_dict

/-- Steps that file values of the same contents under one name build documents of the same contents,
in which copies of the values are found. -/
theorem exists_buildAfter (name : String) (hname : name ≠ "query") {step other : Step}
    (hstep : step.target = name) (hother : other.target = name) {v w : Value}
    (h : v.contents = w.contents) (hv : ∀ old, step.value old = pure v)
    (hw : ∀ old, other.value old = pure w) (es : Dict) (i : Identity) (withQuery : Bool) :
  ∃ d d', buildAfter ⟨.dict es i, withQuery⟩ step = pure d ∧
    buildAfter ⟨.dict es i, withQuery⟩ other = pure d' ∧ d.contents = d'.contents ∧
    d.get (.str name) = pure v.copy
  := by
  have hfind := Entries.find?_insert_text name v es
  have hfind' := Entries.find?_insert_text name w es
  obtain ⟨d, hd, hget⟩ := get_build hname hfind .new withQuery
  obtain ⟨d', hd', -⟩ := get_build hname hfind' .new withQuery
  have halike := (Entries.Alike.refl es).insert (.text name) h
  use d, d'
  rw [buildAfter, buildAfter, apply_eq, apply_eq, hv, hw, hstep, hother]
  simp only [pure_bind, hd, hd', Build.liftM_ok, true_and]
  exact ⟨contents_build halike .new .new withQuery hd hd', hget⟩

/-! ### The effect of a callback -/

/-- Aggregations and what they build make the same document. -/
theorem exists_aggs {a : Aggregations} (h : a.UnderTexts) (es : Dict) (i : Identity)
    (withQuery : Bool) :
  ∃ d d', buildAfter ⟨.dict es i, withQuery⟩ (.aggs fun _ => pure a.toValue) = pure d ∧
    buildAfter ⟨.dict es i, withQuery⟩ (.aggs fun _ => pure a.build) = pure d' ∧
    d.contents = d'.contents
  := by
  obtain ⟨cs, hcs, -⟩ := h
  have hnodes : ∀ old, (Step.aggs fun _ => pure a.toValue).value old = pure a.nodes := by
    intro old
    rfl
  have hbuilt : ∀ old, (Step.aggs fun _ => pure a.build).value old = pure a.build := by
    intro old
    rw [Aggregations.build, hcs, State.snapshot, Value.copy_dict]
    rfl
  have hcontents : a.nodes.contents = a.build.contents := (Value.contents_copy a.nodes).symm
  obtain ⟨d, d', hd, hd', hdd', -⟩ :=
    exists_buildAfter "aggs" (by decide) rfl rfl hcontents hnodes hbuilt es i withQuery
  use d, d'

/-- Suggestions and what they build make the same document, and what they build is found there. -/
theorem exists_suggest (s : Suggestions) (es : Dict) (i : Identity) (withQuery : Bool) :
  ∃ d d' e e', buildAfter ⟨.dict es i, withQuery⟩ (.suggest fun _ => pure s.toValue) = pure d ∧
    buildAfter ⟨.dict es i, withQuery⟩ (.suggest fun _ => pure s.build) = pure d' ∧
    d.contents = d'.contents ∧ d.get (.str "suggest") = pure e ∧
    s.build.entryAt (.str "suggest") = .ok e' ∧ e.contents = e'.contents
  := by
  have hstate : ∀ old, (Step.suggest fun _ => pure s.toValue).value old = pure s.state := by
    intro old
    rfl
  have hbuilt : ∀ old, (Step.suggest fun _ => pure s.build).value old = pure s.state.copy := by
    intro old
    rfl
  have hcontents : s.state.contents = s.state.copy.contents := (Value.contents_copy _).symm
  obtain ⟨d, d', hd, hd', hdd', hget⟩ :=
    exists_buildAfter "suggest" (by decide) rfl rfl hcontents hstate hbuilt es i withQuery
  use d, d', s.state.copy, s.state.copy, hd, hd', hdd', hget
  exact ⟨rfl, rfl⟩

theorem apply_aggs_of_not_namesEntries {v : Value} (h : ¬ Fragment.NamesEntries v) (es : Dict)
    (i : Identity) (withQuery : Bool) :
  apply ⟨.dict es i, withQuery⟩ (.aggs fun _ => pure v) = .fail (Fragment.refusal "aggs" v)
  := by
  rw [apply_eq, Step.value, pure_bind, Fragment.entriesOf_of_not_namesEntries h]
  rfl

theorem apply_suggest_of_not_namesEntries {v : Value} (h : ¬ Fragment.NamesEntries v) (es : Dict)
    (i : Identity) (withQuery : Bool) :
  apply ⟨.dict es i, withQuery⟩ (.suggest fun _ => pure v) = .fail (Fragment.refusal "suggest" v)
  := by
  rw [apply_eq, Step.value, pure_bind, Fragment.suggestionsOf_of_not_namesEntries h]
  rfl

/-- The callback of a composition may return aggregations or what they build, and suggestions or
what they build: the documents that are built are the same, and nesting has the same result or the
same fault.  Whatever else a callback returns that is no dictionary is refused, except that a function
that it holds under `to_map` is called without an argument and fails. -/
theorem composed_alike {steps rootSteps : List Aggregations.Step} {calls rootCalls : Calls}
    {a r : Aggregations} (hsteps : ∀ step ∈ steps, step.Adds Value.IsText)
    (ha : (Aggregations.new.run steps calls).result = .ok a)
    (hrootSteps : ∀ step ∈ rootSteps, step.Adds Value.IsText)
    (hr : (Aggregations.new.run rootSteps rootCalls).result = .ok r)
    (hadd : ∃ name node, .add name node ∈ rootSteps)
    (s : Suggestions) (es : Dict) (i : Identity) (withQuery : Bool) :
  (∃ d d', buildAfter ⟨.dict es i, withQuery⟩ (.aggs fun _ => pure a.toValue) = pure d ∧
      buildAfter ⟨.dict es i, withQuery⟩ (.aggs fun _ => pure a.build) = pure d' ∧
      d.contents = d'.contents) ∧
    Build.Matches Aggregations.Alike (r.apply (.nest fun _ => pure a.toValue))
      (r.apply (.nest fun _ => pure a.build)) ∧
    (∃ d d' e e', buildAfter ⟨.dict es i, withQuery⟩ (.suggest fun _ => pure s.toValue) = pure d ∧
      buildAfter ⟨.dict es i, withQuery⟩ (.suggest fun _ => pure s.build) = pure d' ∧
      d.contents = d'.contents ∧ d.get (.str "suggest") = pure e ∧
      s.build.entryAt (.str "suggest") = .ok e' ∧ e.contents = e'.contents) ∧
    ∀ v, ¬ Fragment.NamesEntries v →
      apply ⟨.dict es i, withQuery⟩ (.aggs fun _ => pure v) = .fail (Fragment.refusal "aggs" v) ∧
      apply ⟨.dict es i, withQuery⟩ (.suggest fun _ => pure v) =
        .fail (Fragment.refusal "suggest" v) ∧
      r.apply (.nest fun _ => pure v) = .fail (Fragment.refusal "sub_agg" v)
  := by
  have haTexts := Aggregations.yields_underTexts_run Aggregations.underTexts_new hsteps calls a ha
  have hne : rootSteps ≠ [] := by
    obtain ⟨name, node, hmem⟩ := hadd
    apply List.ne_nil_of_mem hmem
  obtain ⟨hrTexts, hrLast⟩ := Aggregations.yields_last_run hrootSteps hne rootCalls r hr
  use exists_aggs haTexts es i withQuery
  use Aggregations.matches_nest hrTexts haTexts
  use exists_suggest s es i withQuery
  intro v hv
  use apply_aggs_of_not_namesEntries hv es i withQuery
  use apply_suggest_of_not_namesEntries hv es i withQuery
  apply Aggregations.apply_nest_of_not_namesEntries hrTexts hrLast hv

/-- A terms aggregation is nested below another one, and the only suggestion is called `suggest`. -/
theorem composed_alike_of_ambiguous_names :
  let a : Aggregations := ⟨.single "t" (.single "terms" (.single "field" (.str "x"))), .str "t"⟩
  let s : Suggestions := ⟨.single "suggest" (Suggester.term.entry (.str "w") .empty)⟩
  Build.Matches Aggregations.Alike (a.apply (.nest fun _ => pure a.toValue))
      (a.apply (.nest fun _ => pure a.build)) ∧
    ∃ d d' e e', new.buildAfter (.suggest fun _ => pure s.toValue) = pure d ∧
      new.buildAfter (.suggest fun _ => pure s.build) = pure d' ∧ d.contents = d'.contents ∧
      d.get (.str "suggest") = pure e ∧ s.build.entryAt (.str "suggest") = .ok e' ∧
      e.contents = e'.contents
  := by
  intro a s
  let step : Aggregations.Step := .add (.str "t") (.onField "terms" (.str "x") .null)
  let calls : Calls := fun _ _ _ => .of (.ok .null)
  have hsteps : ∀ other ∈ [step], other.Adds Value.IsText := by
    rw [List.forall_mem_singleton]
    use "t"
  have ha : (Aggregations.new.run [step] calls).result = .ok a := rfl
  have hadd : ∃ name node, .add name node ∈ [step] := ⟨_, _, List.mem_singleton_self _⟩
  obtain ⟨-, hnest, hsuggest, -⟩ := composed_alike hsteps ha hsteps ha hadd s [] .new true
  exact ⟨hnest, hsuggest⟩

/-- A query object that holds a function under `to_map` is not refused as no map of entries. -/
theorem not_refused_as_no_map :
  ¬∀ v, ¬ Fragment.NamesEntries v →
    new.apply (.aggs fun _ => pure v) = .fail (.notComposable "aggs" v.kind)
  := by
  intro h
  have hquery := h (.query "term" [("to_map", .function "x" (.ref "x") none)]) id
  have htype : new.apply (.aggs fun _ =>
      pure (.query "term" [("to_map", .function "x" (.ref "x") none)])) = .fail .wrongType := rfl
  rw [htype] at hquery
  cases Build.fail_injective hquery

end Request

end SearchDsl
