import SearchDsl.Proofs.Request.Step
import SearchDsl.Script.Eval

/-!
# A request target by target

The document of a request has the targets of its steps as its names, in the order of their
first use (`Request.names_document`).  The value under a target is made by the steps with that
target alone: they could as well be all the steps there are, and steps with different targets
could change places (`Request.document_decomposes`).

The values are those of runs in which no callback changes something in place.  A change reaches what
other steps have put in or will put in: the callbacks of two steps may hold the same dictionary, and
what one of them changes in it the other finds (`Request.not_decomposes`).
-/

namespace SearchDsl

namespace Request

/-! ### The document of a request -/

/-- The entries of the document that a request builds. -/
def document (r : Request) : Dict :=
  match r.build with
  | .ok (.dict es _) => es
  | _ => []

theorem build_dict {es : Dict} (h : es.Texts) :
  build ⟨.dict es, true⟩ = .ok (.dict (Entries.mapValues Value.copy es))
  := by
  have hkeys : (es.map fun e => (e.1.mapObject Value.copy, e.2.copy)) =
      Entries.mapValues Value.copy es := by
    apply List.map_congr_left
    intro e he
    obtain ⟨s, hs⟩ := h e he
    rw [hs, Key.mapObject_text]
  change Except.ok (Value.copy (.dict es)) = _
  rw [Value.copy_dict, hkeys]
  rfl

theorem document_dict {es : Dict} (h : es.Texts) :
  document ⟨.dict es, true⟩ = Entries.mapValues Value.copy es
  := by
  rw [document, build_dict h]

/-- A run from the empty request files an entry under every target, in the order of their first
use. -/
theorem yields_targets (steps : List Step) :
  Build.Yields
    (fun es => es.Texts ∧
      Entries.names es = (steps.map fun step => Name.text step.target).eraseDups)
    (steps.foldlM file [])
  := by
  intro calls es hes
  obtain ⟨ps, rfl, hkeys⟩ := yields_filed [] steps calls es hes
  constructor
  · apply Entries.texts_nil.merge
    intro e he
    have hkey := List.mem_map_of_mem (f := Prod.fst) he
    rw [hkeys] at hkey
    obtain ⟨step, -, hstep⟩ := List.mem_map.1 hkey
    use step.target
    apply hstep.symm
  · have hnames : Entries.names ps = steps.map fun step => Name.text step.target := by
      have h := congrArg (List.map Named.name) hkeys
      rw [List.map_map, List.map_map] at h
      apply h
    rw [← hnames]
    apply Entries.names_ofPairs

/-- What comes of a run from the empty request. -/
theorem result_run {steps : List Step} {calls : Calls} {r : Request}
    (h : (new.run steps calls).result = .ok r) :
  ∃ es : Dict, r = ⟨.dict es, true⟩ ∧ (steps.foldlM file [] calls).result = .ok es
  := by
  have hrun : new.run steps = do return ⟨.dict (← steps.foldlM file []), true⟩ :=
    run_eq [] true steps
  rw [hrun, Build.result_bind] at h
  cases hes : (steps.foldlM file [] calls).result with
  | error fault =>
    rw [hes] at h
    cases h
  | ok es =>
    rw [hes] at h
    use es
    constructor
    · apply (Except.ok.inj h).symm
    · rfl

/-- The names of the document are the targets of the steps, in the order of their first use. -/
theorem names_document {steps : List Step} {calls : Calls} {r : Request}
    (h : (new.run steps calls).result = .ok r) :
  r.build = .ok (.dict r.document) ∧
    r.document.names = (steps.map fun step => Name.text step.target).eraseDups
  := by
  obtain ⟨es, rfl, hes⟩ := result_run h
  obtain ⟨htexts, hnames⟩ := yields_targets steps calls es hes
  rw [document_dict htexts, build_dict htexts, Entries.names_mapValues]
  exact ⟨rfl, hnames⟩

theorem find?_document_run {steps : List Step} {calls : Calls} {es : Dict}
    (hes : (steps.foldlM file [] calls).result = .ok es) (k : Name) :
  Entries.find? k (document ⟨.dict es, true⟩) = (es.find? k).map Value.copy
  := by
  obtain ⟨htexts, -⟩ := yields_targets steps calls es hes
  rw [document_dict htexts, Entries.find?_mapValues]

/-! ### Sorting -/

/-- The step sorts by an item. -/
def Step.Sorts (step : Step) (item : Value) : Prop :=
  ∃ field direction key, step = .sort field direction ∧ field.key = .ok key ∧
    item = .single key direction

/-- The list of the items to sort by, where there are any. -/
def sortValue (items : List Value) : Option Value :=
  if items.isEmpty then none else some (.list items)

theorem eq_sort_of_target {step : Step} (h : step.target = "sort") :
  ∃ field direction, step = .sort field direction
  := by
  cases step with
  | sort field direction => use field, direction
  | set parameter value =>
    have hname : parameter.name ≠ "sort" := by
      cases parameter
      all_goals decide
    exact absurd h hname
  | _ =>
    rw [Step.target] at h
    exact absurd h (by decide)

theorem yields_sort (items : List Value) (field direction : Value) :
  Build.Yields (fun v => ∃ item, Step.Sorts (.sort field direction) item ∧
      v = .list (items ++ [item]))
    (Step.value (sortValue items) (.sort field direction))
  := by
  have hitems : (((sortValue items).getD .null).orElse (.list [])).items = .ok items := by
    cases items with
    | nil => rfl
    | cons item items => rfl
  intro calls v hv
  rw [Step.value, hitems] at hv
  cases hkey : field.key with
  | error fault =>
    rw [hkey] at hv
    cases hv
  | ok key =>
    rw [hkey] at hv
    use .single key direction
    constructor
    · use field, direction, key, rfl, hkey
    · apply (Except.ok.inj hv).symm

/-- A run adds the items of its sorting steps, one for each and in order. -/
theorem yields_sorted {es : Dict} {items : List Value} (h : es.find? "sort" = sortValue items)
    (steps : List Step) :
  Build.Yields
    (fun ds => ∃ more, List.Forall₂ Step.Sorts (steps.filter (·.target = "sort")) more ∧
      Entries.find? "sort" ds = sortValue (items ++ more))
    (steps.foldlM file es)
  := by
  induction steps generalizing es items with
  | nil =>
    apply Build.Yields.pure
    use [], .nil
    rw [List.append_nil]
    apply h
  | cons step steps ih =>
    rw [foldlM_file_cons]
    by_cases htarget : step.target = "sort"
    · obtain ⟨field, direction, rfl⟩ := eq_sort_of_target htarget
      have hvalue := yields_sort items field direction
      rw [← h] at hvalue
      refine hvalue.andThen ?_
      rintro v ⟨item, hitem, rfl⟩ calls ds hds
      have hfind : Entries.find? "sort" (es.insert (.text "sort") (.list (items ++ [item]))) =
          sortValue (items ++ [item]) := by
        rw [sortValue, if_neg (by simp)]
        apply Entries.find?_insert_text
      obtain ⟨more, hmore, hsort⟩ := ih hfind calls ds hds
      use item :: more
      constructor
      · rw [List.filter_cons_of_pos (by simp [Step.target])]
        apply List.Forall₂.cons hitem hmore
      · rw [hsort, List.append_assoc, List.singleton_append]
    · apply Build.Yields.bind
      intro v calls ds hds
      have hfind := Entries.find?_insert_text_of_ne (Ne.symm htarget) v es
      rw [h] at hfind
      obtain ⟨more, hmore, hsort⟩ := ih hfind calls ds hds
      use more
      rw [List.filter_cons_of_neg (by simp [htarget])]
      use hmore, hsort

theorem find?_sort_document {steps : List Step} {calls : Calls} {r : Request}
    (h : (new.run steps calls).result = .ok r) :
  ∃ items, List.Forall₂ Step.Sorts (steps.filter (·.target = "sort")) items ∧
    Entries.find? "sort" r.document = (sortValue items).map Value.copy
  := by
  obtain ⟨es, rfl, hes⟩ := result_run h
  have hnone : Entries.find? "sort" ([] : Dict) = sortValue [] := rfl
  obtain ⟨items, hitems, hsort⟩ := yields_sorted hnone steps calls es hes
  use items, hitems
  rw [find?_document_run hes, hsort, List.nil_append]

/-! ### Parameters -/

/-- The value that a step sets a parameter to. -/
def Step.setting? (parameter : Parameter) : Step → Option Value
  | .set other value => if other = parameter then some value else none
  | _ => none

theorem eq_set_of_target {step : Step} {parameter : Parameter}
    (h : step.target = parameter.name) :
  ∃ value, step = .set parameter value
  := by
  cases step with
  | set other value =>
    have hname : ∀ p q : Parameter, p.name = q.name → p = q := by
      intro p q
      cases p
      all_goals
        cases q
        all_goals decide
    use value
    rw [hname other parameter h]
  | _ =>
    rw [Step.target] at h
    cases parameter
    all_goals exact absurd h (by decide)

/-- A parameter has the value that was set last. -/
theorem yields_set (es : Dict) (parameter : Parameter) (steps : List Step) :
  Build.Yields
    (fun ds => Entries.find? parameter.name ds =
      (steps.filterMap (Step.setting? parameter)).getLast?.or (es.find? parameter.name))
    (steps.foldlM file es)
  := by
  induction steps generalizing es with
  | nil =>
    apply Build.Yields.pure
    rfl
  | cons step steps ih =>
    rw [foldlM_file_cons]
    by_cases htarget : step.target = parameter.name
    · obtain ⟨value, rfl⟩ := eq_set_of_target htarget
      intro calls ds hds
      rw [Step.value, pure_bind] at hds
      have hfind := ih _ calls ds hds
      have hsetting : Step.setting? parameter (.set parameter value) = some value := if_pos rfl
      rw [hfind, Step.target, Entries.find?_insert_text, List.filterMap_cons_some hsetting,
        List.getLast?_cons]
      cases (steps.filterMap (Step.setting? parameter)).getLast? with
      | none => rfl
      | some last => rfl
    · apply Build.Yields.bind
      intro v calls ds hds
      have hsetting : Step.setting? parameter step = none := by
        cases step with
        | set other value =>
          rw [Step.setting?, if_neg]
          rintro rfl
          apply htarget rfl
        | _ => rfl
      rw [ih _ calls ds hds, Entries.find?_insert_text_of_ne (Ne.symm htarget),
        List.filterMap_cons_none hsetting]

theorem find?_parameter_document {steps : List Step} {calls : Calls} {r : Request}
    (h : (new.run steps calls).result = .ok r) (parameter : Parameter) :
  Entries.find? parameter.name r.document =
    (steps.filterMap (Step.setting? parameter)).getLast?.map Value.copy
  := by
  obtain ⟨es, rfl, hes⟩ := result_run h
  rw [find?_document_run hes, yields_set [] parameter steps calls es hes]
  congr 1
  apply Option.or_none

/-! ### Steps of one target among others -/

theorem comesTo_run {steps : List Step} {calls : Calls} {r : Request} :
  Build.ComesTo (new.run steps) calls r ↔
    ∃ es : Dict, Build.ComesTo (steps.foldlM file []) calls es ∧ r = ⟨.dict es, true⟩
  := by
  have hrun : new.run steps = do return ⟨.dict (← steps.foldlM file []), true⟩ :=
    run_eq [] true steps
  rw [hrun, Build.comesTo_bind]
  simp only [Build.comesTo_pure, eq_comm]

/-- The entries that are kept apart for each target, with one more value filed under one of the
targets. -/
def fileApart (parts : String → Dict) (target : String) (v : Value) (k : String) : Dict :=
  if k = target then (parts k).insert (.text k) v else parts k

theorem fileApart_self (parts : String → Dict) (target : String) (v : Value) :
  fileApart parts target v target = (parts target).insert (.text target) v
  := if_pos rfl

theorem fileApart_of_ne {k target : String} (h : k ≠ target) (parts : String → Dict) (v : Value) :
  fileApart parts target v k = parts k
  := if_neg h

/-- Filing a value apart keeps what is found under each target what is found among all. -/
theorem find?_fileApart {es : Dict} {parts : String → Dict}
    (hparts : ∀ k : String, Entries.find? k (parts k) = es.find? k) (target : String) (v : Value)
    (k : String) :
  Entries.find? k (fileApart parts target v k) = Entries.find? k (es.insert (.text target) v)
  := by
  by_cases hk : k = target
  · rw [hk, fileApart_self, Entries.find?_insert_text, Entries.find?_insert_text]
  · rw [fileApart_of_ne hk, Entries.find?_insert_text_of_ne hk, hparts]

/-- Some steps come to values under all targets exactly when, for each target, the steps with
this target alone come to the value there.  The invariant is that every target has entries of its
own, with the value that the common entries have there. -/
theorem comesTo_iff (steps : List Step) (calls : Calls) (found : String → Option Value) {es : Dict}
    {parts : String → Dict} (hparts : ∀ k : String, Entries.find? k (parts k) = es.find? k) :
  (∃ ds, Build.ComesTo (steps.foldlM file es) calls ds ∧
      ∀ k : String, Entries.find? k ds = found k) ↔
    ∀ k : String, ∃ ds,
      Build.ComesTo ((steps.filter (·.target = k)).foldlM file (parts k)) calls ds ∧
      Entries.find? k ds = found k
  := by
  induction steps generalizing es parts with
  | nil =>
    simp only [List.filter_nil, List.foldlM_nil, Build.comesTo_pure, exists_eq_left', hparts]
  | cons step steps ih =>
    have hself : (step :: steps).filter (·.target = step.target) =
        step :: steps.filter (·.target = step.target) :=
      List.filter_cons_of_pos (decide_eq_true rfl)
    rw [foldlM_file_cons]
    by_cases hstep : ∃ v, Build.ComesTo (step.value (es.find? step.target)) calls v
    · obtain ⟨v, hv⟩ := hstep
      simp only [hv.bind_iff]
      rw [ih (find?_fileApart hparts step.target v)]
      apply forall_congr'
      intro k
      by_cases hk : k = step.target
      · subst hk
        rw [← hparts] at hv
        rw [fileApart_self, hself, foldlM_file_cons]
        simp only [hv.bind_iff]
      · have hother : (step :: steps).filter (·.target = k) = steps.filter (·.target = k) :=
          List.filter_cons_of_neg (by simp [Ne.symm hk])
        rw [fileApart_of_ne hk, hother]
    · constructor
      · rintro ⟨ds, hds, -⟩
        obtain ⟨v, hv, -⟩ := Build.comesTo_bind.1 hds
        exact absurd ⟨v, hv⟩ hstep
      · intro h
        obtain ⟨ds, hds, -⟩ := h step.target
        rw [hself, foldlM_file_cons, hparts] at hds
        obtain ⟨v, hv, -⟩ := Build.comesTo_bind.1 hds
        exact absurd ⟨v, hv⟩ hstep

/-- From no entries, some steps come to values under all targets exactly when the steps of each
target come to the value there. -/
theorem comesTo_run_iff (steps : List Step) (calls : Calls) (found : String → Option Value) :
  (∃ es, Build.ComesTo (steps.foldlM file []) calls es ∧
      ∀ k : String, Entries.find? k es = found k) ↔
    ∀ k : String, ∃ es,
      Build.ComesTo ((steps.filter (·.target = k)).foldlM file []) calls es ∧
      Entries.find? k es = found k
  := by
  have hparts : ∀ k : String, Entries.find? k ([] : Dict) = Entries.find? k ([] : Dict) :=
    fun _ => rfl
  apply comesTo_iff steps calls found hparts

/-- The steps of one target come to the value there by themselves. -/
theorem document_of_target {steps : List Step} {calls : Calls} {r : Request}
    (h : Build.ComesTo (new.run steps) calls r) (k : String) :
  ∃ q, Build.ComesTo (new.run (steps.filter (·.target = k))) calls q ∧
    Entries.find? k q.document = Entries.find? k r.document
  := by
  obtain ⟨es, hes, rfl⟩ := comesTo_run.1 h
  obtain ⟨ds, hds, hfound⟩ :=
    (comesTo_run_iff steps calls fun k => Entries.find? k es).1 ⟨es, hes, fun _ => rfl⟩ k
  use ⟨.dict ds, true⟩, comesTo_run.2 ⟨ds, hds, rfl⟩
  rw [find?_document_run hds.1, find?_document_run hes.1, hfound]

/-- Steps may be rearranged where those of one target keep their order. -/
theorem document_of_rearranged {steps steps' : List Step} {calls : Calls} {r : Request}
    (h : Build.ComesTo (new.run steps) calls r)
    (same : ∀ k : String, steps'.filter (·.target = k) = steps.filter (·.target = k)) :
  ∃ q, Build.ComesTo (new.run steps') calls q ∧
    (∀ k : String, Entries.find? k q.document = Entries.find? k r.document) ∧
    q.document.names.Perm r.document.names
  := by
  obtain ⟨es, hes, rfl⟩ := comesTo_run.1 h
  have hparts := (comesTo_run_iff steps calls fun k => Entries.find? k es).1 ⟨es, hes, fun _ => rfl⟩
  have hparts' : ∀ k : String, ∃ ds,
      Build.ComesTo ((steps'.filter (·.target = k)).foldlM file []) calls ds ∧
      Entries.find? k ds = Entries.find? k es := by
    intro k
    rw [same]
    apply hparts k
  obtain ⟨ds, hds, hfound⟩ := (comesTo_run_iff steps' calls _).2 hparts'
  have hrun := comesTo_run.2 ⟨ds, hds, rfl⟩
  use ⟨.dict ds, true⟩, hrun
  constructor
  · intro k
    rw [find?_document_run hds.1, find?_document_run hes.1, hfound]
  · have hmem : ∀ step, step ∈ steps' ↔ step ∈ steps := by
      intro step
      have hfilter : step ∈ steps'.filter (·.target = step.target) ↔
          step ∈ steps.filter (·.target = step.target) := by rw [same]
      simpa using hfilter
    rw [(names_document hrun.1).2, (names_document h.1).2,
      List.perm_ext_iff_of_nodup (nodup_eraseDups _) (nodup_eraseDups _)]
    intro name
    rw [List.mem_eraseDups, List.mem_eraseDups, List.mem_map, List.mem_map]
    simp only [hmem]

theorem filter_swap {a b : Step} (hab : a.target ≠ b.target) (before after : List Step)
    (k : String) :
  (before ++ b :: a :: after).filter (·.target = k) =
    (before ++ a :: b :: after).filter (·.target = k)
  := by
  rw [List.filter_append, List.filter_append]
  congr 1
  by_cases ha : a.target = k
  · have hb : b.target ≠ k := fun hb => hab (ha.trans hb.symm)
    simp [ha, hb]
  · simp [List.filter_cons, ha]

/-- The document of a request, target by target.  Its names are the targets in the order of
their first use.  Where nothing is changed in place, the items of all sorting steps are in the list
to sort by, every parameter has the value that was set last, the steps of one target come to its
value by themselves, and two neighbours with different targets may change places. -/
theorem document_decomposes (steps : List Step) (calls : Calls) (r : Request)
    (h : (new.run steps calls).result = .ok r) :
  (r.build = .ok (.dict r.document) ∧
    r.document.names = (steps.map fun step => Name.text step.target).eraseDups) ∧
  ((new.run steps calls).changes = [] →
    (∃ items, List.Forall₂ Step.Sorts (steps.filter (·.target = "sort")) items ∧
      Entries.find? "sort" r.document = (sortValue items).map Value.copy) ∧
    (∀ parameter : Parameter, Entries.find? parameter.name r.document =
      (steps.filterMap (Step.setting? parameter)).getLast?.map Value.copy) ∧
    (∀ k : String, ∃ q, Build.ComesTo (new.run (steps.filter (·.target = k))) calls q ∧
      Entries.find? k q.document = Entries.find? k r.document) ∧
    ∀ before a b after, steps = before ++ a :: b :: after → a.target ≠ b.target →
      ∃ q, Build.ComesTo (new.run (before ++ b :: a :: after)) calls q ∧
        (∀ k : String, Entries.find? k q.document = Entries.find? k r.document) ∧
        q.document.names.Perm r.document.names)
  := by
  constructor
  · apply names_document h
  intro hnone
  constructor
  · apply find?_sort_document h
  constructor
  · apply find?_parameter_document h
  constructor
  · apply document_of_target ⟨h, hnone⟩
  · rintro before a b after rfl hab
    apply document_of_rearranged ⟨h, hnone⟩ (filter_swap hab before after)

/-- Two sorts and a size that is set twice, with a boolean query between them. -/
theorem document_of_paging :
  ∃ r,
    (new.run [.sort (.str "day") (.str "asc"), .set .size (.int 1),
      .bool (.clause .must fun _ => pure (.single "match_all" .empty)), .set .size (.int 2),
      .sort (.str "id") (.str "desc")] (Script.callIn [] .empty)).result = .ok r ∧
    r.document.names = [.text "sort", .text "size", .text "query"] ∧
    Entries.find? "size" r.document = some (.int 2) ∧
    ∃ q, Build.ComesTo (new.run [.sort (.str "day") (.str "asc"), .sort (.str "id") (.str "desc")])
        (Script.callIn [] .empty) q ∧
      Entries.find? "sort" q.document = Entries.find? "sort" r.document
  := by
  let steps : List Step := [.sort (.str "day") (.str "asc"), .set .size (.int 1),
    .bool (.clause .must fun _ => pure (.single "match_all" .empty)), .set .size (.int 2),
    .sort (.str "id") (.str "desc")]
  let calls : Calls := Script.callIn [] .empty
  obtain ⟨r, hr⟩ : ∃ r, (new.run steps calls).result = .ok r := ⟨_, rfl⟩
  obtain ⟨⟨-, hnames⟩, hvalues⟩ := document_decomposes steps calls r hr
  obtain ⟨-, hparameters, hsingle, -⟩ := hvalues rfl
  use r, hr
  constructor
  · rw [hnames]
    decide
  constructor
  · apply hparameters .size
  · apply hsingle "sort"

/-! ### A dictionary that two callbacks hold -/

/-- What names denote: `d` is a dictionary of the number 0. -/
def sharing : Script.Env := [("d", .dict [(.text "size", .int 1)] (.known 0))]

/-- A clause whose value is what a change of `d` in place comes to, and an aggregation with `d` as
its options. -/
def sharingSteps : List Step :=
  [.bool (.clause .must (Build.call (.function "c"
      (.call (.ref "c") "term"
        [.str "x", .call (.ref "d") "update" [.dict [("size", .int 2)]] (.dict [])] (.dict []))
      none (.known 1)))),
    .aggs (Build.call (.function "a"
      (.call (.ref "a") "terms" [.str "t", .str "f", .ref "d"] (.dict []))
      none (.known 2)))]

/-- The size that is asked of the only aggregation. -/
def aggregationSize : Option Value → Option Int
  | some (.dict [(_, .dict [(_, .dict [_, (_, .int n)] _)] _)] _) => some n
  | _ => none

/-- Where a callback changes something in place, the steps of one target need not come to its
value by themselves: here the aggregation has the size 2, and 1 where it is all there is. -/
theorem not_decomposes :
  ¬∀ (steps : List Step) (calls : Calls) (r : Request), (new.run steps calls).result = .ok r →
    ∀ k : String, ∃ q, (new.run (steps.filter (·.target = k)) calls).result = .ok q ∧
      Entries.find? k q.document = Entries.find? k r.document
  := by
  intro h
  let calls : Calls := Script.callIn sharing ⟨3, [], []⟩
  have htogether : (new.run sharingSteps calls).result.map (fun r =>
      aggregationSize (Entries.find? "aggs" r.document)) = .ok (some 2) := by
    decide +kernel
  have halone : (new.run (sharingSteps.filter (·.target = "aggs")) calls).result.map (fun q =>
      aggregationSize (Entries.find? "aggs" q.document)) = .ok (some 1) := by
    decide +kernel
  cases hr : (new.run sharingSteps calls).result with
  | error fault =>
    rw [hr] at htogether
    cases htogether
  | ok r =>
    obtain ⟨q, hq, heq⟩ := h sharingSteps calls r hr "aggs"
    rw [hr] at htogether
    rw [hq] at halone
    have htwo : aggregationSize (Entries.find? "aggs" r.document) = some 2 :=
      Except.ok.inj htogether
    have hone : aggregationSize (Entries.find? "aggs" q.document) = some 1 :=
      Except.ok.inj halone
    rw [heq, htwo] at hone
    cases hone

end Request

end SearchDsl
