import Mathlib.Logic.Function.Iterate
import SearchDsl.Proofs.Composition
import SearchDsl.Proofs.Embedding

/-!
# Null clauses

A callback of a composition may return null, or a request without a query, which stands for null.
Neither is dropped: every callback has its item, which is null exactly where the callback returned
one of the two.  A warning is reported for each callback that returned null itself, and for nothing
else (`Composition.nulls_reported`).

The callback of a compound clause passes a null on, so that it is reported again where the compound
clause is returned.  A request without a query is not reported where it is returned, and it passes
on as null.
-/

namespace SearchDsl

/-! ### What is absorbed -/

namespace Returned

theorem absorbed_null {r : Returned} (h : r ≠ clause) :
  r.Absorbed .null
  := by
  use iff_of_true rfl h
  intro hclause
  exact absurd hclause h

theorem absorbed_clause {item : Value} (h : item.IsDict) :
  clause.Absorbed item
  := by
  constructor
  · obtain ⟨es, i, rfl⟩ := h
    simp
  · intro _
    apply h

theorem count_null (r : Returned) :
  [r].count null = r.warnings
  := by
  cases r
  all_goals rfl

/-- Null alone is reported when it is absorbed. -/
theorem reports_absorb {r : Returned} {v : Value} (h : r.Of v) :
  (Fragment.absorb v).Reports r.warnings r.Absorbed
  := by
  cases r with
  | null =>
    obtain rfl : v = .null := h
    intro calls item hitem
    obtain rfl : .null = item := Except.ok.inj hitem
    exact ⟨rfl, absorbed_null (by decide)⟩
  | withoutQuery =>
    match v, h with
    | .request (.dict es i) withQuery j, h =>
      have hnull : (Entries.find? "query" es).getD .null = Value.null := h
      rw [Fragment.absorb_request, hnull]
      exact Build.Reports.pure (absorbed_null (by decide))
  | clause =>
    match v, h with
    | .dict es i, _ =>
      have hdict : Value.IsDict (.dict es i) := ⟨es, i, rfl⟩
      rw [hdict.absorb]
      exact Build.Reports.pure (absorbed_clause hdict)
    | .query name params, _ =>
      apply Build.Reports.lift
      intro item hitem
      rw [Search.queryDictionary, Search.dictionary] at hitem
      cases hparams : Search.dictionaryEntries (Search.queryRoles name) params with
      | error fault =>
        rw [hparams] at hitem
        cases hitem
      | ok es =>
        rw [hparams] at hitem
        obtain rfl := Except.ok.inj hitem
        apply absorbed_clause (Value.isDict_single _ _)
    | .boolQuery state i, _ =>
      rw [Fragment.absorb_boolQuery]
      exact Build.Reports.pure (absorbed_clause (Value.isDict_single _ _))
    | .request (.dict es i) withQuery j, h =>
      rw [Fragment.absorb_request]
      exact Build.Reports.pure (absorbed_clause h)

end Returned

/-! ### Arrays of clauses -/

namespace BoolQuery

theorem fragment?_eq_none_iff (occurrence : Occurrence) (part : Part) :
  part.fragment? occurrence = none ↔ part.slot ≠ some occurrence
  := by
  cases part with
  | clause o fragment => simp [Part.fragment?, Part.slot]
  | minimumShouldMatch value => simp [Part.fragment?, Part.slot]

/-- A payload has an array for each occurrence of which there are clauses. -/
theorem arrayOf_payload (parts : List Part) (occurrence : Occurrence) :
  ArrayOf occurrence (payload parts) (parts.filterMap (Part.fragment? occurrence))
  := by
  have hfind := find?_payload parts (some occurrence)
  change (payload parts).find? occurrence.name = _ at hfind
  have hslot : some occurrence ∉ parts.map Part.slot ↔
      parts.filterMap (Part.fragment? occurrence) = [] := by
    rw [List.filterMap_eq_nil_iff]
    simp only [fragment?_eq_none_iff, List.mem_map, not_exists, not_and, ne_eq]
  by_cases h : parts.filterMap (Part.fragment? occurrence) = []
  · left
    use h
    rw [hfind, if_neg (hslot.2 h)]
  · right
    use h, .new
    rw [hfind, if_pos (not_not.1 fun hnot => h (hslot.1 hnot)), slotValue]

end BoolQuery

namespace Composition

/-- The part is what the step comes to. -/
def HoldsPart : CompositionStep → BoolQuery.Part → Prop
  | .clause occurrence inner, .clause o item => o = occurrence ∧ inner.HoldsAt item
  | .minimumShouldMatch _, .minimumShouldMatch _ => True
  | _, _ => False

/-- Where the parts are what the steps come to, the clauses of an occurrence are what its calls come
to. -/
theorem forall₂_callsOf {steps : List CompositionStep} {parts : List BoolQuery.Part}
    (h : List.Forall₂ HoldsPart steps parts) (occurrence : Occurrence) :
  List.Forall₂ HoldsAt (callsOf occurrence steps)
    (parts.filterMap (BoolQuery.Part.fragment? occurrence))
  := by
  have hrel : ∀ s part, HoldsPart s part →
      Option.Rel HoldsAt (s.call? occurrence) (part.fragment? occurrence) := by
    intro s part hpart
    match s, part, hpart with
    | .clause o inner, .clause _ item, ⟨rfl, hitem⟩ =>
      rw [CompositionStep.call?, BoolQuery.Part.fragment?]
      split
      · apply Option.Rel.some hitem
      · apply Option.Rel.none
    | .minimumShouldMatch _, .minimumShouldMatch _, _ => apply Option.Rel.none
  apply List.rel_filterMap hrel h

end Composition

/-! ### What clauses report -/

theorem reports_whenTrue {v : Value} {name : String}
    (h : (v.get (.str name)).Reports 0 fun _ => True) :
  (v.whenTrue name).Reports 0 fun _ => True
  := by
  refine Build.Reports.andThen h ?_
  intro found _
  split
  · refine Build.Reports.andThen (Build.Reports.lift fun _ _ => trivial) ?_
    intro entry _
    exact Build.Reports.pure trivial
  · exact Build.Reports.pure trivial

theorem reports_whenPresent {v : Value} {name : String}
    (h : (v.get (.str name)).Reports 0 fun _ => True) :
  (v.whenPresent name).Reports 0 fun _ => True
  := by
  refine Build.Reports.andThen h ?_
  intro found _
  split
  · exact Build.Reports.pure trivial
  · refine Build.Reports.andThen (Build.Reports.lift fun _ _ => trivial) ?_
    intro entry _
    exact Build.Reports.pure trivial

theorem Value.quiet_of_isDict {options : Value} (h : options.orEmpty.IsDict) :
  options.Quiet
  := by
  intro name
  obtain ⟨es, i, hes⟩ := h
  rw [hes, Value.get_dict]
  exact Build.Reports.pure trivial

/-- A script is made of a dictionary alone, and without a report. -/
theorem Clause.reports_scriptPayload (options : Value) :
  (scriptPayload options).Reports 0 fun _ => True
  := by
  cases options with
  | dict es i =>
    have hget : ∀ name, ((Value.dict es i).get (.str name)).Reports 0 fun _ => True := by
      intro name
      rw [Value.get_dict]
      exact Build.Reports.pure trivial
    refine Build.Reports.andThen (hget "source") ?_
    intro source _
    refine Build.Reports.andThen (Build.Reports.lift fun _ _ => trivial) ?_
    intro language _
    refine Build.Reports.andThen (reports_whenTrue (hget "params")) ?_
    intro params _
    exact Build.Reports.pure trivial
  | _ =>
    intro calls payload h
    obtain ⟨source, -, hrest⟩ := Build.exists_of_bind_ok h
    obtain ⟨language, hlanguage, -⟩ := Build.exists_of_bind_ok hrest
    cases hlanguage

theorem Value.reports_withOptions (start : Dict) (options : Value) :
  (liftM (Value.withOptions start options) : Build Value).Reports 0 fun payload =>
    ∃ os, options.orEmpty.mapping = .ok os ∧ .dict (start.merge os) = payload
  := by
  apply Build.Reports.lift
  intro payload h
  apply Value.withOptions_eq_ok_iff.1 h

/-- Options that do not override a name leave it as it is. -/
theorem Value.find?_of_not_override {options : Value} {name : String} {os : Dict}
    (hos : options.orEmpty.mapping = .ok os) (h : ¬ options.Override name) (start : Dict) :
  (start.merge os).find? name = start.find? name
  := by
  apply Entries.find?_merge_of_notMem
  intro hmem
  apply h
  use os

/-- A clause stands for itself wherever it is made. -/
theorem Place.reports_make {c : Clause} {n : Nat} {P : Value → Prop}
    (h : c.fragment.Reports n fun item => item.IsDict ∧ P item) (place : Place) :
  (place.make c).Reports n fun v =>
    v.StandsForClause ∧ (Fragment.absorb v).Reports 0 fun item => item.IsDict ∧ P item
  := by
  cases place with
  | factory =>
    apply h.mono
    rintro item ⟨⟨es, i, rfl⟩, hitem⟩
    use trivial
    have hdict : Value.IsDict (.dict es i) := ⟨es, i, rfl⟩
    rw [hdict.absorb]
    exact Build.Reports.pure ⟨hdict, hitem⟩
  | root es withQuery =>
    have hmake : Place.make (.root es withQuery) c = do
        return (Request.toValue
          ⟨.dict (es.insert (.text "query") (← c.fragment)), withQuery⟩) := by
      rw [make, Request.apply_eq, bind_assoc]
      rfl
    rw [hmake]
    refine h.andThen ?_
    rintro item ⟨hdict, hitem⟩
    apply Build.Reports.pure
    rw [Request.toValue, Fragment.absorb_request, Value.StandsForClause, Entries.get,
      Entries.find?_insert_text, Option.getD_some]
    use hdict
    exact Build.Reports.pure ⟨hdict, hitem⟩

/-! ### What compositions report -/

/-- Steps make the boolean query at a root that has no clauses yet. -/
theorem Request.run_bool_of_root {es : Dict}
    (h : BoolQuery.ofState (rootPayload (es.find? "query")) = .new) (withQuery : Bool)
    {steps : List BoolQuery.Step} (hne : steps ≠ []) :
  (⟨.dict es, withQuery⟩ : Request).run (steps.map .bool) = do
    return ⟨.dict (es.insert (.text "query") (Fragment.bool
      (.dict (BoolQuery.payload (← steps.mapM BoolQuery.Step.part))))), withQuery⟩
  := by
  cases steps with
  | nil => exact absurd rfl hne
  | cons step steps =>
    have hroot : BoolQuery.ofState (rootPayload (es.find? "query")) =
        ⟨.dict (BoolQuery.payload [])⟩ := h
    have hrest := fun parts => run_bool_eq es withQuery parts steps
    unfold run at hrest ⊢
    rw [List.map_cons, List.foldlM_cons, apply_bool_of_root hroot, List.mapM_cons]
    simp only [bind_assoc, pure_bind, hrest, List.nil_append, List.singleton_append]

namespace Composition

/-- What is returned, and what it is absorbed as. -/
def Delivers (c : Composition) (v : Value) : Prop :=
  c.returns.Of v ∧ (Fragment.absorb v).Reports c.returns.warnings c.HoldsAt

/-- A position reports what its callback does, and then what it returned. -/
theorem reports_fragment {inner : Composition}
    (h : inner.run.Reports (inner.positions.count .null) inner.Delivers) (argument : Value) :
  (Callback.fragment (fun _ => inner.run) argument).Reports
    ((inner.positions ++ [inner.returns]).count .null) inner.HoldsAt
  := by
  rw [List.count_append, Returned.count_null]
  apply Build.Reports.bind h
  rintro v ⟨-, habsorb⟩
  apply habsorb

/-- A clause with options has the item of its callback under a name, unless these override it. -/
theorem reports_withOptions {inner : Composition} {options : Value}
    (h : inner.run.Reports (inner.positions.count .null) inner.Delivers) (kind : Key)
    (name : String) {start : Value → Dict} (hstart : ∀ item, (start item).find? name = some item)
    {P : Value → Prop} (hP : ∀ (item : Value) (es : Dict) i j, inner.HoldsAt item →
      (¬ options.Override name → es.find? name = some item) → P (.dict [(kind, .dict es i)] j)) :
  Build.Reports ((inner.positions ++ [inner.returns]).count .null) (fun v => v.IsDict ∧ P v) (do
    let item ← Callback.fragment (fun _ => inner.run) .clauses
    return .single kind (← Value.withOptions (start item) options))
  := by
  refine (reports_fragment h _).andThen ?_
  intro item hitem
  refine (Value.reports_withOptions _ _).andThen ?_
  rintro _ ⟨os, hos, rfl⟩
  apply Build.Reports.pure
  use Value.isDict_single _ _
  apply hP item _ _ _ hitem
  intro hkeep
  rw [Value.find?_of_not_override hos hkeep, hstart]

/-- A clause that is made at a place is delivered as a clause. -/
theorem reports_make {c : Composition} {clause : Clause} {n : Nat} (hclause : c.returns = .clause)
    (h : clause.fragment.Reports n fun item => item.IsDict ∧ c.Holds item) (place : Place) :
  (place.make clause).Reports n c.Delivers
  := by
  apply (Place.reports_make h place).mono
  rintro v ⟨hv, habsorb⟩
  rw [Delivers, hclause]
  use hv
  apply habsorb.mono
  rintro item ⟨hdict, hitem⟩
  apply HoldsAt.intro _ hitem
  rw [hclause]
  apply Returned.absorbed_clause hdict

theorem delivers_boolQuery {steps : List CompositionStep} {parts : List BoolQuery.Part}
    (h : List.Forall₂ HoldsPart steps parts) :
  Delivers (.bool steps) (.boolQuery (.dict (BoolQuery.payload parts)))
  := by
  use trivial
  rw [Fragment.absorb_boolQuery]
  apply Build.Reports.pure
  constructor
  · apply Returned.absorbed_clause (Value.isDict_single _ _)
  · apply Holds.bool _ (BoolQuery.arrayOf_payload parts) (forall₂_callsOf h)

theorem delivers_request (es : Dict) (withQuery : Bool) {steps : List CompositionStep}
    {parts : List BoolQuery.Part} (h : List.Forall₂ HoldsPart steps parts) :
  Delivers (.root es withQuery steps) (Request.toValue ⟨.dict (es.insert (.text "query")
    (Fragment.bool (.dict (BoolQuery.payload parts)))), withQuery⟩)
  := by
  have hdict : (Fragment.bool (.dict (BoolQuery.payload parts))).IsDict := Value.isDict_single _ _
  rw [Delivers, Request.toValue, Fragment.absorb_request, Entries.find?_insert_text,
    Option.getD_some]
  constructor
  · change (Entries.get _ _).IsDict
    rw [Entries.get, Entries.find?_insert_text]
    apply hdict
  · apply Build.Reports.pure
    constructor
    · apply Returned.absorbed_clause hdict
    · apply Holds.root _ (BoolQuery.arrayOf_payload parts) (forall₂_callsOf h)

/-- A compound clause passes on what its callback is absorbed as. -/
theorem delivers_compound {inner : Composition} {item : Value} (h : inner.HoldsAt item) :
  Delivers (.compound inner) item
  := by
  obtain ⟨absorbed, holds⟩ := h
  have hholds : Holds (.compound inner) item := .compound holds
  rw [Delivers, returns]
  by_cases hclause : inner.returns = .clause
  · obtain ⟨es, i, rfl⟩ := absorbed.2 hclause
    have hdict : Value.IsDict (.dict es i) := ⟨es, i, rfl⟩
    rw [if_pos hclause]
    use trivial
    rw [hdict.absorb]
    apply Build.Reports.pure
    apply HoldsAt.intro _ hholds
    rw [returns, if_pos hclause]
    apply Returned.absorbed_clause hdict
  · obtain rfl := absorbed.1.2 hclause
    rw [if_neg hclause]
    use rfl
    have hnull : Returned.null.Of .null := rfl
    apply (Returned.reports_absorb hnull).mono
    intro item hitem
    obtain rfl := hitem.1.2 (by decide)
    apply HoldsAt.intro _ hholds
    rw [returns, if_neg hclause]
    apply hitem

end Composition

theorem stepsOf_ne_nil {steps : List CompositionStep} (h : steps ≠ []) :
  stepsOf steps ≠ []
  := by
  cases steps with
  | nil => exact absurd rfl h
  | cons s steps =>
    rw [stepsOf]
    apply List.cons_ne_nil

mutual

/-- A composition reports the nulls within it, and delivers what it returns. -/
theorem Composition.reports_run (c : Composition) (h : c.Sound) :
  c.run.Reports (c.positions.count .null) c.Delivers
  := by
  match c with
  | .leaf returned made =>
    rw [Composition.Sound] at h
    rw [Composition.run, Composition.positions, List.count_nil]
    apply h.mono
    intro v hv
    use hv
    apply (Returned.reports_absorb hv).mono
    intro item hitem
    apply Composition.HoldsAt.intro _ (.leaf item)
    apply hitem
  | .bool steps =>
    rw [Composition.Sound] at h
    rw [Composition.run, BoolQuery.run_new, Composition.positions]
    simp only [bind_assoc, pure_bind]
    refine (reports_parts steps h).andThen ?_
    intro parts hparts
    exact Build.Reports.pure (Composition.delivers_boolQuery hparts)
  | .root es withQuery steps =>
    rw [Composition.Sound] at h
    obtain ⟨hne, hroot, hsteps⟩ := h
    rw [Composition.run, Request.run_bool_of_root hroot withQuery (stepsOf_ne_nil hne),
      Composition.positions]
    simp only [bind_assoc, pure_bind]
    refine (reports_parts steps hsteps).andThen ?_
    intro parts hparts
    exact Build.Reports.pure (Composition.delivers_request es withQuery hparts)
  | .compound inner =>
    rw [Composition.Sound] at h
    rw [Composition.run, Composition.positions, Clause.compound]
    apply (Composition.reports_fragment (inner.reports_run h) _).mono
    intro item hitem
    apply Composition.delivers_compound hitem
  | .nested place path inner options =>
    rw [Composition.Sound] at h
    rw [Composition.run, Composition.positions]
    apply Composition.reports_make rfl
    apply Composition.reports_withOptions (inner.reports_run h) "nested" "query"
    · intro query
      rfl
    · intro query es i j hquery filed
      exact .nested hquery filed
  | .constantScore place inner options =>
    rw [Composition.Sound] at h
    rw [Composition.run, Composition.positions]
    apply Composition.reports_make rfl
    apply Composition.reports_withOptions (inner.reports_run h) "constant_score" "filter"
    · intro filter
      rfl
    · intro filter es i j hfilter filed
      exact .constantScore hfilter filed
  | .scriptScore place inner script options =>
    rw [Composition.Sound] at h
    obtain ⟨hinner, hquiet⟩ := h
    rw [Composition.run, Composition.positions]
    apply Composition.reports_make rfl
    refine (Composition.reports_fragment (inner.reports_run hinner) _).andThen ?_
    intro query hquery
    refine (Clause.reports_scriptPayload script).andThen ?_
    intro body _
    refine (reports_whenPresent (hquiet "min_score")).andThen ?_
    intro minScore _
    refine (reports_whenTrue (hquiet "boost")).andThen ?_
    intro boost _
    apply Build.Reports.pure
    use Value.isDict_single _ _
    apply Composition.Holds.scriptScore hquery
    rfl

theorem CompositionStep.reports_part (s : CompositionStep) (h : s.Sound) :
  s.step.part.Reports (s.positions.count .null) (Composition.HoldsPart s)
  := by
  match s with
  | .clause occurrence inner =>
    rw [CompositionStep.Sound] at h
    rw [CompositionStep.step, CompositionStep.positions, BoolQuery.Step.part]
    refine (Composition.reports_fragment (inner.reports_run h) _).andThen ?_
    intro item hitem
    exact Build.Reports.pure ⟨rfl, hitem⟩
  | .minimumShouldMatch value =>
    rw [CompositionStep.step, CompositionStep.positions]
    exact Build.Reports.pure trivial

theorem reports_parts (steps : List CompositionStep) (h : StepsSound steps) :
  ((stepsOf steps).mapM BoolQuery.Step.part).Reports ((positionsOf steps).count .null)
    (List.Forall₂ Composition.HoldsPart steps)
  := by
  match steps with
  | [] =>
    rw [stepsOf, positionsOf, List.mapM_nil]
    exact Build.Reports.pure .nil
  | s :: steps =>
    rw [StepsSound] at h
    rw [stepsOf, positionsOf, List.mapM_cons, List.count_append]
    apply (s.reports_part h.1).bind
    intro part hpart
    refine (reports_parts steps h.2).andThen ?_
    intro parts hparts
    exact Build.Reports.pure (.cons hpart hparts)

end

/-! ### What is built -/

theorem Value.copy_eq_null_iff (v : Value) :
  v.copy = .null ↔ v = .null
  := by
  constructor
  · intro h
    have hcontents := Value.contents_copy v
    rw [h] at hcontents
    cases v with
    | null => rfl
    | _ => cases hcontents
  · rintro rfl
    rfl

theorem Returned.Absorbed.copy {r : Returned} {item : Value} (h : r.Absorbed item) :
  r.Absorbed item.copy
  := by
  obtain ⟨hnull, hdict⟩ := h
  constructor
  · rw [Value.copy_eq_null_iff, hnull]
  · intro hclause
    apply (hdict hclause).copy

theorem ArrayOf.copy {occurrence : Occurrence} {es : Dict} {items : List Value}
    (h : ArrayOf occurrence es items) :
  ArrayOf occurrence (es.map fun e => (e.1.mapObject Value.copy, e.2.copy))
    (items.map Value.copy)
  := by
  obtain ⟨rfl, hfind⟩ | ⟨hne, i, hfind⟩ := h
  · left
    use rfl
    rw [Entries.find?_copy_text, hfind, Option.map_none]
  · right
    constructor
    · intro hnil
      apply hne (List.map_eq_nil_iff.1 hnil)
    · use i.copied
      rw [Entries.find?_copy_text, hfind, Option.map_some, Value.copy_list]

namespace Composition

theorem HoldsAt.copy_of {c : Composition} {item : Value} (h : c.HoldsAt item)
    (hcopy : c.Holds item → c.Holds item.copy) :
  c.HoldsAt item.copy
  := by
  obtain ⟨absorbed, holds⟩ := h
  constructor
  · apply absorbed.copy
  · apply hcopy holds

theorem find?_copy_of {options v : Value} {name : String} {es : Dict}
    (h : ¬ options.Override name → es.find? name = some v) (hkeep : ¬ options.Override name) :
  Entries.find? name (es.map fun e => (e.1.mapObject Value.copy, e.2.copy)) = some v.copy
  := by
  rw [Entries.find?_copy_text, h hkeep, Option.map_some]

mutual

/-- A copy of a clause has copies of its items. -/
theorem holds_copy (c : Composition) {item : Value} (h : c.Holds item) :
  c.Holds item.copy
  := by
  match c with
  | .leaf returned made => apply Holds.leaf
  | .bool steps =>
    cases h with
    | bool items arrays clauses =>
      simp only [Value.copy_dict, List.map_cons, List.map_nil, Key.mapObject_text]
      apply Holds.bool (fun o => (items o).map Value.copy) fun o => (arrays o).copy
      intro o
      apply forall₂_copy steps o (clauses o)
  | .root es withQuery steps =>
    cases h with
    | root items arrays clauses =>
      simp only [Value.copy_dict, List.map_cons, List.map_nil, Key.mapObject_text]
      apply Holds.root (fun o => (items o).map Value.copy) fun o => (arrays o).copy
      intro o
      apply forall₂_copy steps o (clauses o)
  | .compound inner =>
    cases h with
    | compound clause => exact .compound (holds_copy inner clause)
  | .nested place path inner options =>
    cases h with
    | nested clause filed =>
      simp only [Value.copy_dict, List.map_cons, List.map_nil, Key.mapObject_text]
      exact .nested (clause.copy_of (holds_copy inner)) (find?_copy_of filed)
  | .constantScore place inner options =>
    cases h with
    | constantScore clause filed =>
      simp only [Value.copy_dict, List.map_cons, List.map_nil, Key.mapObject_text]
      exact .constantScore (clause.copy_of (holds_copy inner)) (find?_copy_of filed)
  | .scriptScore place inner script options =>
    cases h with
    | scriptScore clause filed =>
      simp only [Value.copy_dict, List.map_cons, List.map_nil, Key.mapObject_text]
      apply Holds.scriptScore (clause.copy_of (holds_copy inner))
      rw [Entries.find?_copy_text, filed, Option.map_some]

theorem forall₂_copy (steps : List CompositionStep) (occurrence : Occurrence) {items : List Value}
    (h : List.Forall₂ HoldsAt (callsOf occurrence steps) items) :
  List.Forall₂ HoldsAt (callsOf occurrence steps) (items.map Value.copy)
  := by
  match steps with
  | [] =>
    cases h with
    | nil => exact .nil
  | .minimumShouldMatch value :: steps => apply forall₂_copy steps occurrence h
  | .clause o inner :: steps =>
    by_cases ho : o = occurrence
    · have hcons : callsOf occurrence (.clause o inner :: steps) =
          inner :: callsOf occurrence steps := List.filterMap_cons_some (if_pos ho)
      rw [hcons] at h ⊢
      cases h with
      | cons hitem hrest =>
        exact .cons (hitem.copy_of (holds_copy inner)) (forall₂_copy steps occurrence hrest)
    · have hskip : callsOf occurrence (.clause o inner :: steps) = callsOf occurrence steps :=
        List.filterMap_cons_none (if_neg ho)
      rw [hskip] at h ⊢
      apply forall₂_copy steps occurrence h

end

/-! ### Nulls that pass through -/

theorem returns_compounds {c : Composition} (h : c.returns ≠ .clause) (d : Nat) :
  (compound^[d] c).returns ≠ .clause
  := by
  induction d with
  | zero => apply h
  | succ d ih =>
    rw [Function.iterate_succ_apply', returns, if_neg ih]
    decide

theorem sound_compounds {c : Composition} (h : c.Sound) (d : Nat) :
  (compound^[d] c).Sound
  := by
  induction d with
  | zero => apply h
  | succ d ih =>
    rw [Function.iterate_succ_apply', Sound]
    apply ih

/-- Each compound clause on the way reports a null that is passed on once more. -/
theorem count_compounds {c : Composition} (h : c.returns ≠ .clause) (d : Nat) :
  ((compound^[d] c).positions ++ [(compound^[d] c).returns]).count .null =
    c.positions.count .null + (d + c.returns.warnings)
  := by
  induction d with
  | zero => rw [Function.iterate_zero_apply, List.count_append, Returned.count_null, Nat.zero_add]
  | succ d ih =>
    have hnull : (compound (compound^[d] c)).returns = .null := if_neg (returns_compounds h d)
    rw [Function.iterate_succ_apply', positions, hnull, List.count_append, ih, Returned.count_null,
      Returned.warnings]
    omega

/-- What a boolean query builds is a copy of what it is absorbed as. -/
theorem HoldsAt.build_boolQuery {c : Composition} {b : BoolQuery}
    (h : ∀ calls item, (Fragment.absorb b.toValue calls).result = .ok item → c.HoldsAt item) :
  c.HoldsAt b.build
  := by
  have hfragment : c.HoldsAt b.fragment := h (fun _ _ _ => .of (.ok .null)) _ rfl
  exact hfragment.copy_of (holds_copy c)

/-- A request builds a copy of what it is absorbed as. -/
theorem HoldsAt.build_request {c : Composition} {es : Dict} {i : Identity}
    (h : ∀ calls item, (Fragment.absorb (Request.toValue ⟨.dict es i, true⟩) calls).result =
      .ok item → c.HoldsAt item) :
  ∃ d query, Request.build ⟨.dict es i, true⟩ = .ok d ∧ d.get (.str "query") = pure query ∧
    c.HoldsAt query
  := by
  have hquery : c.HoldsAt (Entries.get es "query") := h (fun _ _ _ => .of (.ok .null)) _ rfl
  use Value.copy (.dict es i), (Entries.get es "query").copy, rfl
  constructor
  · rw [Value.copy_dict, Value.get_dict, Entries.find?_copy_text, Entries.get]
    cases es.find? "query" with
    | none => rfl
    | some query => rfl
  · exact hquery.copy_of (holds_copy c)

/-- Where a composition runs without a fault, it reports a warning for every callback within it that
returned null itself, and for nothing else.  What it returns is absorbed as a clause in which every
callback has its item, in order, and so is what a boolean query or a request builds of it; the item
is null exactly where the callback returned null or a request without a query.  A null that passes
through compound clauses is reported at each of them and where it ends up, and a request without a
query is not reported where it is returned. -/
theorem nulls_reported (c : Composition) (h : c.Sound) :
  (∀ calls v, (c.run calls).result = .ok v →
    (c.run calls).warnings = c.positions.count .null ∧ c.returns.Of v ∧
    (∀ calls item, (Fragment.absorb v calls).result = .ok item → c.HoldsAt item) ∧
    (∀ b : BoolQuery, v = b.toValue → c.HoldsAt b.build) ∧
    ∀ (es : Dict) (i : Identity), v = Request.toValue ⟨.dict es i, true⟩ →
      ∃ d query, Request.build ⟨.dict es i, true⟩ = .ok d ∧ d.get (.str "query") = pure query ∧
        c.HoldsAt query) ∧
  (c.returns ≠ .clause → ∀ d occurrence calls v,
    ((bool [.clause occurrence (compound^[d] c)]).run calls).result = .ok v →
    ((bool [.clause occurrence (compound^[d] c)]).run calls).warnings =
      c.positions.count .null + (d + c.returns.warnings))
  := by
  constructor
  · intro calls v hv
    obtain ⟨hwarnings, hreturns, habsorb⟩ := c.reports_run h calls v hv
    have hitem : ∀ calls item, (Fragment.absorb v calls).result = .ok item → c.HoldsAt item :=
      fun calls item h => (habsorb calls item h).2
    use hwarnings, hreturns, hitem
    constructor
    · rintro b rfl
      exact HoldsAt.build_boolQuery hitem
    · rintro es i rfl
      exact HoldsAt.build_request hitem
  · intro hnull d occurrence calls v hv
    have hsound : (bool [.clause occurrence (compound^[d] c)]).Sound := by
      rw [Sound, StepsSound, StepsSound, and_true, CompositionStep.Sound]
      apply sound_compounds h
    obtain ⟨hwarnings, -⟩ := reports_run _ hsound calls v hv
    rw [hwarnings, positions, positionsOf, positionsOf, List.append_nil, CompositionStep.positions,
      count_compounds hnull]

/-- A null and a clause among the required ones, a null through a compound clause, one in a clause of
which the options override it, one in a scored clause at the root of a request, and a request
without a query. -/
theorem nulls_reported_of_mixed_clauses :
  let null : Composition := leaf .null (pure .null)
  let c : Composition := bool [.clause .must null,
    .clause .must (leaf .clause (pure (.single "match_all" .empty))),
    .clause .should (compound null),
    .clause .mustNot (nested .factory (.str "p") null (.single "query" .null)),
    .clause .mustNot (scriptScore (.root [] true) null (.single "source" (.str "1")) .null),
    .clause .filter (leaf .withoutQuery (pure Request.new.toValue))]
  ∃ v, (c.run fun _ _ _ => .of (.ok .null)).result = .ok v ∧
    (c.run fun _ _ _ => .of (.ok .null)).warnings = 5
  := by
  intro null c
  have hnull : null.Sound := Build.Reports.pure rfl
  have hquiet : Value.null.Quiet := Value.quiet_of_isDict ⟨[], .new, rfl⟩
  have hsound : c.Sound := by
    simp only [c, Sound, StepsSound, CompositionStep.Sound, and_true]
    use hnull, Build.Reports.pure trivial, hnull, hnull, ⟨hnull, hquiet⟩
    exact Build.Reports.pure rfl
  obtain ⟨v, hv⟩ : ∃ v, (c.run fun _ _ _ => .of (.ok .null)).result = .ok v := ⟨_, rfl⟩
  use v, hv
  apply ((nulls_reported c hsound).1 _ v hv).1

end Composition

end SearchDsl
