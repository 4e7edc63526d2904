import Mathlib.Data.List.DropRight
import SearchDsl.Proofs.Clause
import SearchDsl.Proofs.Request.Targets

/-!
# The root query of a request

A step either replaces the root query (`Request.Step.replacement?`), continues the boolean query
at the root (`Request.Step.bool?`), or leaves the root query alone.  What counts are the steps
after the last replacement.  Where none of them is boolean, the root query is what was put there
last; otherwise it is the boolean query that the boolean ones make of an empty one
(`Request.query_of_run`).

This holds where no callback changes something in place.  A callback of another step may change what
a clause holds, and then the boolean steps do not come to the same by themselves
(`Request.not_query_of_bool_alone`).
-/

namespace SearchDsl

namespace Request

/-! ### Steps and the root query -/

/-- The fragment that a step puts in the place of any root query. -/
def Step.replacement? : Step → Option (Build Value)
  | .query c => some c.fragment
  | .newBool => some (pure (Fragment.bool .empty))
  | _ => none

/-- The step of the boolean query at the root. -/
def Step.bool? : Step → Option BoolQuery.Step
  | .bool step => some step
  | _ => none

/-- The steps up to the last one that replaces the root query. -/
def untilReplaced (steps : List Step) : List Step :=
  steps.rdropWhile fun step => step.replacement?.isNone

/-- The steps after the last one that replaces the root query. -/
def sinceReplaced (steps : List Step) : List Step :=
  steps.rtakeWhile fun step => step.replacement?.isNone

/-- The steps of the boolean query since the root query was last replaced. -/
def boolSteps (steps : List Step) : List BoolQuery.Step :=
  (sinceReplaced steps).filterMap Step.bool?

theorem untilReplaced_append_sinceReplaced (steps : List Step) :
  untilReplaced steps ++ sinceReplaced steps = steps
  := List.rdropWhile_append_rtakeWhile

/-- Up to the last replacement there is nothing, or a replacement at the end. -/
theorem untilReplaced_cases (steps : List Step) :
  untilReplaced steps = [] ∨
    ∃ before step fragment, untilReplaced steps = before ++ [step] ∧
      step.replacement? = some fragment
  := by
  by_cases h : untilReplaced steps = []
  · left
    apply h
  · right
    have hlast := List.rdropWhile_last_not (fun step : Step => step.replacement?.isNone) steps h
    obtain ⟨fragment, hfragment⟩ := Option.ne_none_iff_exists'.1 fun hnone =>
      hlast (Option.isNone_iff_eq_none.2 hnone)
    use (untilReplaced steps).dropLast, (untilReplaced steps).getLast h, fragment
    constructor
    · apply (List.dropLast_append_getLast h).symm
    · apply hfragment

theorem replacement?_of_mem_since {steps : List Step} {step : Step}
    (h : step ∈ sinceReplaced steps) :
  step.replacement? = none
  := by
  have hnone := List.mem_rtakeWhile_imp (p := fun step : Step => step.replacement?.isNone) h
  apply Option.isNone_iff_eq_none.1 hnone

/-- A step that neither replaces the root query nor continues it has another target. -/
theorem target_ne_query {step : Step} (hreplacement : step.replacement? = none)
    (hbool : step.bool? = none) :
  step.target ≠ "query"
  := by
  cases step with
  | query c => cases hreplacement
  | newBool => cases hreplacement
  | bool step => cases hbool
  | set parameter value =>
    rw [Step.target]
    cases parameter
    all_goals decide
  | _ =>
    rw [Step.target]
    decide

/-- A replacement puts its fragment under the name of the query, whatever is there. -/
theorem replaces {step : Step} {fragment : Build Value} (h : step.replacement? = some fragment) :
  step.target = "query" ∧ ∀ old, step.value old = fragment
  := by
  cases step with
  | query c =>
    obtain rfl : c.fragment = fragment := Option.some.inj h
    exact ⟨rfl, fun _ => rfl⟩
  | newBool =>
    obtain rfl : pure (Fragment.bool .empty) = fragment := Option.some.inj h
    exact ⟨rfl, fun _ => rfl⟩
  | _ => cases h

/-- A boolean step that follows a replacement finds an empty boolean query. -/
theorem yields_replacement {step : Step} {fragment : Build Value}
    (h : step.replacement? = some fragment) :
  Build.Yields (fun v => BoolQuery.ofState (rootPayload (some v)) = .new) fragment
  := by
  cases step with
  | query c =>
    obtain rfl : c.fragment = fragment := Option.some.inj h
    intro calls v hv
    obtain ⟨kind, payload, hkind, rfl⟩ := Clause.yields_fragment c calls v hv
    have hnone : Entries.find? "bool" ([(.text kind, payload)] : Dict) = none :=
      if_neg fun heq => hkind (Name.text.inj heq)
    rw [Value.single, rootPayload, hnone]
    rfl
  | newBool =>
    obtain rfl : pure (Fragment.bool .empty) = fragment := Option.some.inj h
    apply Build.Yields.pure
    rfl
  | _ => cases h

/-! ### Runs that change nothing in place -/

/-- A boolean query that is at the root is continued with what each boolean step comes to by itself;
where there is no such step, the root query stays. -/
theorem comesTo_bools {steps : List Step} (hsteps : ∀ step ∈ steps, step.replacement? = none)
    {es ds : Dict} {parts : List BoolQuery.Part} {calls : Calls}
    (hroot : BoolQuery.ofState (rootPayload (es.find? "query")) = ⟨.dict (BoolQuery.payload parts)⟩)
    (h : Build.ComesTo (steps.foldlM file es) calls ds) :
  ∃ more, List.Forall₂ (fun step part => Build.ComesTo step.part calls part)
      (steps.filterMap Step.bool?) more ∧
    Entries.find? "query" ds = if more = [] then es.find? "query"
      else some (Fragment.bool (.dict (BoolQuery.payload (parts ++ more))))
  := by
  induction steps generalizing es parts with
  | nil =>
    obtain rfl := Build.comesTo_pure.1 h
    exact ⟨[], .nil, rfl⟩
  | cons step steps ih =>
    obtain ⟨hstep, hrest⟩ := List.forall_mem_cons.1 hsteps
    rw [foldlM_file_cons] at h
    obtain ⟨v, hv, hds⟩ := Build.comesTo_bind.1 h
    cases hbool : step.bool? with
    | some boolStep =>
      obtain rfl : step = .bool boolStep := by
        cases step with
        | bool step => rw [Option.some.inj hbool]
        | _ => cases hbool
      rw [Step.value, Step.target, hroot, BoolQuery.apply_eq, bind_assoc] at hv
      obtain ⟨part, hpart, hfragment⟩ := Build.comesTo_bind.1 hv
      obtain rfl := Build.comesTo_pure.1 hfragment
      have hquery := Entries.find?_insert_text "query"
        (BoolQuery.fragment ⟨.dict (BoolQuery.payload (parts ++ [part]))⟩) es
      have hcontinued : BoolQuery.ofState (rootPayload (Entries.find? "query" (es.insert
          (.text "query") (BoolQuery.fragment ⟨.dict (BoolQuery.payload (parts ++ [part]))⟩)))) =
          ⟨.dict (BoolQuery.payload (parts ++ [part]))⟩ := by
        rw [hquery]
        apply BoolQuery.ofState_dict
      obtain ⟨more, hmore, hfound⟩ := ih hrest hcontinued hds
      use part :: more
      rw [List.filterMap_cons_some hbool]
      use .cons hpart hmore
      rw [hfound, hquery, if_neg (List.cons_ne_nil part more), List.append_cons parts part more]
      split_ifs with hlast
      · rw [hlast, List.append_nil]
        rfl
      · rfl
    | none =>
      have htarget := target_ne_query hstep hbool
      rw [List.filterMap_cons_none hbool, ← Entries.find?_insert_text_of_ne (Ne.symm htarget) v es]
      apply ih hrest _ hds
      rw [Entries.find?_insert_text_of_ne (Ne.symm htarget), hroot]

/-- The query after the last replacement is the fragment that this one comes to by itself, and there
is none where nothing was ever replaced. -/
theorem comesTo_untilReplaced {steps : List Step} {calls : Calls} {es : Dict}
    (h : Build.ComesTo ((untilReplaced steps).foldlM file []) calls es) :
  (untilReplaced steps = [] ∧ es.find? "query" = none) ∨
    ∃ before step fragment v, untilReplaced steps = before ++ [step] ∧
      step.replacement? = some fragment ∧ Build.ComesTo fragment calls v ∧
      es.find? "query" = some v
  := by
  obtain hnil | ⟨before, step, fragment, hsteps, hfragment⟩ := untilReplaced_cases steps
  · left
    rw [hnil] at h
    obtain rfl := Build.comesTo_pure.1 h
    exact ⟨hnil, rfl⟩
  · right
    obtain ⟨htarget, hvalue⟩ := replaces hfragment
    rw [hsteps, List.foldlM_append] at h
    obtain ⟨ds, -, hlast⟩ := Build.comesTo_bind.1 h
    rw [foldlM_file_cons, hvalue, htarget] at hlast
    obtain ⟨v, hv, hes⟩ := Build.comesTo_bind.1 hlast
    obtain rfl := Build.comesTo_pure.1 hes
    use before, step, fragment, v, hsteps, hfragment, hv
    apply Entries.find?_insert_text

/-- A boolean step that follows the last replacement finds an empty boolean query. -/
theorem rootBool_untilReplaced {steps : List Step} {calls : Calls} {es : Dict}
    (h : Build.ComesTo ((untilReplaced steps).foldlM file []) calls es) :
  BoolQuery.ofState (rootPayload (es.find? "query")) = ⟨.dict (BoolQuery.payload [])⟩
  := by
  obtain ⟨-, hnone⟩ | ⟨before, step, fragment, v, -, hfragment, hv, hsome⟩ :=
    comesTo_untilReplaced h
  · rw [hnone]
    rfl
  · rw [hsome]
    apply yields_replacement hfragment calls v hv.1

/-- The query of a document that is made without changing anything in place.  Without boolean steps
since the root query was last replaced it is what the replacement comes to by itself, or there is
none where nothing was ever replaced.  With such steps it is what is built by a boolean query that is
given just these steps; its payload is that of the parts that they come to. -/
theorem query_of_run (steps : List Step) (calls : Calls) (r : Request)
    (h : Build.ComesTo (new.run steps) calls r) :
  (boolSteps steps = [] →
    (untilReplaced steps = [] ∧ Entries.find? "query" r.document = none) ∨
    ∃ before step fragment v, untilReplaced steps = before ++ [step] ∧
      step.replacement? = some fragment ∧ Build.ComesTo fragment calls v ∧
      Entries.find? "query" r.document = some v.copy) ∧
  (boolSteps steps ≠ [] →
    ∃ b parts, Build.ComesTo (BoolQuery.new.run (boolSteps steps)) calls b ∧
      Entries.find? "query" r.document = some b.build ∧
      b = ⟨.dict (BoolQuery.payload parts)⟩ ∧
      List.Forall₂ (fun step part => Build.ComesTo step.part calls part) (boolSteps steps) parts)
  := by
  obtain ⟨es, hes, rfl⟩ := comesTo_run.1 h
  rw [find?_document_run hes.1]
  rw [← untilReplaced_append_sinceReplaced steps, List.foldlM_append] at hes
  obtain ⟨ds, hds, hrest⟩ := Build.comesTo_bind.1 hes
  have hsince : ∀ step ∈ sinceReplaced steps, step.replacement? = none :=
    fun _ => replacement?_of_mem_since
  obtain ⟨parts, hparts, hfound⟩ := comesTo_bools hsince (rootBool_untilReplaced hds) hrest
  constructor
  · intro hnone
    rw [boolSteps] at hnone
    rw [hnone, List.forall₂_nil_left_iff] at hparts
    rw [hfound, if_pos hparts]
    obtain ⟨hnil, hquery⟩ | ⟨before, step, fragment, v, hsteps, hfragment, hv, hquery⟩ :=
      comesTo_untilReplaced hds
    · left
      rw [hquery]
      exact ⟨hnil, rfl⟩
    · right
      use before, step, fragment, v, hsteps, hfragment, hv
      rw [hquery]
      rfl
  · intro hsome
    use ⟨.dict (BoolQuery.payload parts)⟩, parts
    constructor
    · have hnew : BoolQuery.new = ⟨.dict (BoolQuery.payload [])⟩ := rfl
      rw [hnew, BoolQuery.comesTo_run_iff]
      exact ⟨parts, hparts, rfl⟩
    constructor
    · have hne : parts ≠ [] := by
        rintro rfl
        apply hsome (List.forall₂_nil_right_iff.1 hparts)
      rw [hfound, if_neg hne]
      rfl
    · exact ⟨rfl, hparts⟩

/-- Two clauses and a minimum after a term, with paging among them. -/
theorem query_after_term :
  ∃ r b, Build.ComesTo (new.run [.bool (.clause .must fun _ => pure (.single "match_all" .empty)),
      .query (.leaf (.term (.str "kind") (.str "book"))), .set .size (.int 5),
      .bool (.clause .filter fun _ => pure (.single "exists" .empty)),
      .sort (.str "day") (.str "asc"), .bool (.minimumShouldMatch (.int 1)),
      .bool (.clause .filter fun _ => pure .null)]) (Script.callIn [] .empty) r ∧
    Build.ComesTo (BoolQuery.new.run [.clause .filter fun _ => pure (.single "exists" .empty),
      .minimumShouldMatch (.int 1), .clause .filter fun _ => pure .null])
      (Script.callIn [] .empty) b ∧
    Entries.find? "query" r.document = some b.build
  := by
  let steps : List Step := [.bool (.clause .must fun _ => pure (.single "match_all" .empty)),
    .query (.leaf (.term (.str "kind") (.str "book"))), .set .size (.int 5),
    .bool (.clause .filter fun _ => pure (.single "exists" .empty)),
    .sort (.str "day") (.str "asc"), .bool (.minimumShouldMatch (.int 1)),
    .bool (.clause .filter fun _ => pure .null)]
  let calls : Calls := Script.callIn [] .empty
  obtain ⟨r, hr⟩ : ∃ r, Build.ComesTo (new.run steps) calls r := ⟨_, rfl, rfl⟩
  obtain ⟨-, hbool⟩ := query_of_run steps calls r hr
  obtain ⟨b, -, hb, hquery, -, -⟩ := hbool (List.cons_ne_nil _ _)
  use r, b, hr, hb

/-! ### A callback of aggregations that changes what a clause holds -/

/-- Aggregations whose callback changes `d` in place, and a clause whose value is `d`. -/
def changingSteps : List Step :=
  [.aggs (Build.call (.function "a"
      (.call (.ref "a") "terms"
        [.str "t", .str "f", .call (.ref "d") "update" [.dict [("size", .int 2)]] (.dict [])]
        (.dict []))
      none (.known 1))),
    .bool (.clause .must (Build.call (.function "c"
      (.call (.ref "c") "term" [.str "x", .ref "d"] (.dict [])) none (.known 2))))]

/-- The size in the value of the only clause of a boolean query. -/
def clauseSize : Option Value → Option Int
  | some (.dict [(_, .dict [(_, .list [.dict [(_, .dict [(_, .dict [(_, .int n)] _)] _)] _] _)] _)]
      _) => some n
  | _ => none

/-- Where a callback changes something in place, the boolean steps need not come to the root query
by themselves: here its only clause holds the size 2, and 1 where the step is all there is. -/
theorem not_query_of_bool_alone :
  ¬∀ (steps : List Step) (calls : Calls) (r : Request), (new.run steps calls).result = .ok r →
    boolSteps steps ≠ [] → ∃ b, (BoolQuery.new.run (boolSteps steps) calls).result = .ok b ∧
      Entries.find? "query" r.document = some b.build
  := by
  intro h
  let calls : Calls := Script.callIn sharing ⟨3, [], []⟩
  have htogether : (new.run changingSteps calls).result.map (fun r =>
      clauseSize (Entries.find? "query" r.document)) = .ok (some 2) := by
    decide +kernel
  have halone : (BoolQuery.new.run (boolSteps changingSteps) calls).result.map (fun b =>
      clauseSize (some b.build)) = .ok (some 1) := by
    decide +kernel
  cases hr : (new.run changingSteps calls).result with
  | error fault =>
    rw [hr] at htogether
    cases htogether
  | ok r =>
    obtain ⟨b, hb, heq⟩ := h changingSteps calls r hr (List.cons_ne_nil _ _)
    rw [hr] at htogether
    rw [hb] at halone
    have htwo : clauseSize (Entries.find? "query" r.document) = some 2 := Except.ok.inj htogether
    have hone : clauseSize (some b.build) = some 1 := Except.ok.inj halone
    rw [heq, hone] at htwo
    cases htwo

end Request

end SearchDsl
