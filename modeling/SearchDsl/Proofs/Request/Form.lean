import SearchDsl.Proofs.Aggregations.Program
import SearchDsl.Proofs.Request.Targets
import SearchDsl.Proofs.State

/-!
# The form of a request

Whatever an operation is given, what it files has the form of its target (`Request.Form`): a root
query is one clause or one boolean query, the items to sort by are dictionaries with one entry,
aggregations and suggestions are dictionaries, and vector searches and highlighting start with
fixed names.  A boolean query is continued in its form, whatever the callbacks return.  So every
entry of what a request builds has its form (`Request.document_hasForm`).
-/

namespace SearchDsl

/-! ### Dictionaries of text-keyed entries -/

namespace Entries

/-- All keys are texts, and every value is as `P` says for its key. -/
def AllText (P : String → Value → Prop) (es : Dict) : Prop :=
  ∀ e ∈ es, ∃ name, e.1 = .text name ∧ P name e.2

variable {P : String → Value → Prop}

theorem allText_nil :
  AllText P []
  := by
  intro e he
  cases he

/-- Entries are of texts where the first entry is and the others are. -/
theorem allText_cons {e : Key × Value} {es : Dict} :
  AllText P (e :: es) ↔ (∃ name, e.1 = .text name ∧ P name e.2) ∧ AllText P es
  := List.forall_mem_cons

/-- What holds of the entries of two dictionaries holds of those of both together. -/
theorem AllText.append {es ds : Dict} (h : AllText P es) (h' : AllText P ds) :
  AllText P (es ++ ds)
  := by
  intro e he
  obtain he | he := List.mem_append.1 he
  · apply h e he
  · apply h' e he

/-- It still holds after a value of which it holds is filed under a text. -/
theorem AllText.insert {es : Dict} (h : AllText P es) {name : String} {v : Value}
    (hv : P name v) :
  AllText P (es.insert (.text name) v)
  := by
  induction es with
  | nil => exact allText_cons.2 ⟨⟨name, rfl, hv⟩, allText_nil⟩
  | cons e es ih =>
    obtain ⟨⟨other, hother, hw⟩, hes⟩ := allText_cons.1 h
    rw [Entries.insert]
    split
    · rename_i heq
      rw [hother] at heq
      obtain rfl : other = name := Name.text.inj heq
      exact allText_cons.2 ⟨⟨other, hother, hv⟩, hes⟩
    · exact allText_cons.2 ⟨⟨other, hother, hw⟩, ih hes⟩

/-- It holds of every value that is found under a text. -/
theorem AllText.of_find? {es : Dict} (h : AllText P es) {name : String} {v : Value}
    (hfind : es.find? name = some v) :
  P name v
  := by
  obtain ⟨e, he, hname, rfl⟩ := exists_mem_of_find? hfind
  obtain ⟨other, hother, hv⟩ := h e he
  rw [hother] at hname
  obtain rfl : other = name := Name.text.inj hname
  apply hv

/-- It is carried over to other values by whatever keeps the texts. -/
theorem AllText.map {Q : String → Value → Prop} {es : Dict} (h : AllText P es) {f : Key → Key}
    {g : Value → Value} (hf : ∀ s, f (.text s) = .text s)
    (hPQ : ∀ name v, P name v → Q name (g v)) :
  AllText Q (es.map fun e => (f e.1, g e.2))
  := by
  intro d hd
  obtain ⟨e, he, rfl⟩ := List.mem_map.1 hd
  obtain ⟨name, hname, hv⟩ := h e he
  use name
  constructor
  · rw [hname]
    apply hf
  · apply hPQ name e.2 hv

end Entries

namespace Value

/-! ### The form of each part -/

/-- A list with items. -/
def IsFilledList (v : Value) : Prop := ∃ items i, v = .list items i ∧ items ≠ []

/-- A dictionary that files lists with items under occurrences, and anything as the minimum. -/
def IsBoolPayload (v : Value) : Prop :=
  ∃ es i, v = .dict es i ∧
    Entries.AllText (fun name w => name = "minimum_should_match" ∨
      (∃ occurrence : Occurrence, name = occurrence.name) ∧ w.IsFilledList) es

/-- A dictionary with one entry, the payload of a boolean query if its name says so. -/
def IsRootQuery (v : Value) : Prop :=
  ∃ (kind : String) (payload : Value) (i : Identity),
    v = .dict [(.text kind, payload)] i ∧ (kind = "bool" → payload.IsBoolPayload)

/-- A list, not empty, of dictionaries with one entry each. -/
def IsSorting (v : Value) : Prop :=
  ∃ items i, v = .list items i ∧ items ≠ [] ∧
    ∀ item ∈ items, ∃ key direction j, item = .dict [(key, direction)] j

/-- The options that a vector search may have. -/
def vectorOptions : List String := ["filter", "boost", "similarity"]

/-- The options that highlighting has for all fields. -/
def tagOptions : List String := ["pre_tags", "post_tags"]

/-- A dictionary that starts with the field, the vector and two counts, and may go on with
options. -/
def IsVectorSearch (v : Value) : Prop :=
  ∃ field vector k candidates rest i,
    v = .dict ((.text "field", field) :: (.text "query_vector", vector) :: (.text "k", k) ::
      (.text "num_candidates", candidates) :: rest) i ∧
    Entries.AllText (fun name _ => name ∈ vectorOptions) rest

/-- A dictionary that starts with the dictionary of the fields and may go on with tags. -/
def IsHighlighting (v : Value) : Prop :=
  ∃ fields rest i, v = .dict ((.text "fields", fields) :: rest) i ∧ fields.IsDict ∧
    Entries.AllText (fun name _ => name ∈ tagOptions) rest

end Value

namespace Request

/-- The names of a request. -/
def targets : List String :=
  ["query", "knn", "aggs", "suggest", "sort", "from", "to", "size", "_source", "timeout",
    "track_scores", "explain", "min_score", "version", "seq_no_primary_term", "track_total_hits",
    "highlight"]

/-- The form of the value under a name; parameters and fields may be anything. -/
def Form (name : String) (v : Value) : Prop :=
  match name with
  | "query" => v.IsRootQuery
  | "sort" => v.IsSorting
  | "aggs" => v.IsDict
  | "suggest" => v.IsDict
  | "knn" => v.IsVectorSearch
  | "highlight" => v.IsHighlighting
  | _ => True

/-- Every entry is filed under the name of a request and has the form of its name. -/
def HasForm (es : Dict) : Prop :=
  Entries.AllText (fun name v => name ∈ targets ∧ Form name v) es

/-- Every step has one of the names of a request for its target. -/
theorem target_mem (step : Step) :
  step.target ∈ targets
  := by
  cases step with
  | set parameter value =>
    rw [Step.target]
    cases parameter
    all_goals decide
  | _ =>
    rw [Step.target]
    decide

end Request

/-! ### Copies -/

namespace Value

/-- The copy of a list with items has items. -/
theorem IsFilledList.copy {v : Value} (h : v.IsFilledList) :
  v.copy.IsFilledList
  := by
  obtain ⟨items, i, rfl, hitems⟩ := h
  rw [copy_list]
  use items.map Value.copy, i.copied, rfl
  rw [ne_eq, List.map_eq_nil_iff]
  apply hitems

/-- The copy of the payload of a boolean query is one. -/
theorem IsBoolPayload.copy {v : Value} (h : v.IsBoolPayload) :
  v.copy.IsBoolPayload
  := by
  obtain ⟨es, i, rfl, hes⟩ := h
  rw [copy_dict]
  refine ⟨_, i.copied, rfl, hes.map (fun _ => rfl) ?_⟩
  rintro name w (hname | ⟨hname, hw⟩)
  · left
    apply hname
  · right
    exact ⟨hname, hw.copy⟩

/-- The copy of a root query is one. -/
theorem IsRootQuery.copy {v : Value} (h : v.IsRootQuery) :
  v.copy.IsRootQuery
  := by
  obtain ⟨kind, payload, i, rfl, hbool⟩ := h
  rw [copy_dict]
  use kind, payload.copy, i.copied, rfl
  intro hkind
  apply (hbool hkind).copy

/-- The copy of the items to sort by has their form. -/
theorem IsSorting.copy {v : Value} (h : v.IsSorting) :
  v.copy.IsSorting
  := by
  obtain ⟨items, i, rfl, hitems, hall⟩ := h
  rw [copy_list]
  use items.map Value.copy, i.copied, rfl
  constructor
  · rw [ne_eq, List.map_eq_nil_iff]
    apply hitems
  · rw [List.forall_mem_map]
    intro item hitem
    obtain ⟨key, direction, j, rfl⟩ := hall item hitem
    rw [copy_dict]
    exact ⟨_, _, _, rfl⟩

/-- The copy of a vector search is one. -/
theorem IsVectorSearch.copy {v : Value} (h : v.IsVectorSearch) :
  v.copy.IsVectorSearch
  := by
  obtain ⟨field, vector, k, candidates, rest, i, rfl, hrest⟩ := h
  rw [copy_dict]
  exact ⟨_, _, _, _, _, i.copied, rfl, hrest.map (fun _ => rfl) fun _ _ hname => hname⟩

/-- The copy of a highlighting is one. -/
theorem IsHighlighting.copy {v : Value} (h : v.IsHighlighting) :
  v.copy.IsHighlighting
  := by
  obtain ⟨fields, rest, i, rfl, hfields, hrest⟩ := h
  rw [copy_dict]
  exact ⟨_, _, i.copied, rfl, hfields.copy, hrest.map (fun _ => rfl) fun _ _ hname => hname⟩

end Value

namespace Request

/-- A copy has the form of what it is a copy of. -/
theorem Form.copy {name : String} {v : Value} (h : Form name v) :
  Form name v.copy
  := by
  unfold Form at h ⊢
  split at h
  · apply h.copy
  · apply h.copy
  · apply h.copy
  · apply h.copy
  · apply h.copy
  · apply h.copy
  · trivial

end Request

/-! ### Recognised options -/

namespace Value

/-- The entry of an option that is true has the name of the option. -/
theorem yields_whenTrue (v : Value) {name : String} {names : List String} (h : name ∈ names) :
  Build.Yields (Entries.AllText fun other _ => other ∈ names) (v.whenTrue name)
  := by
  apply Build.Yields.bind
  intro w
  split
  · apply Build.Yields.bind
    intro w
    apply Build.Yields.pure
    exact Entries.allText_cons.2 ⟨⟨name, rfl, h⟩, Entries.allText_nil⟩
  · apply Build.Yields.pure Entries.allText_nil

/-- The entry of an option that is there has the name of the option. -/
theorem yields_whenPresent (v : Value) {name : String} {names : List String} (h : name ∈ names) :
  Build.Yields (Entries.AllText fun other _ => other ∈ names) (v.whenPresent name)
  := by
  apply Build.Yields.bind
  intro w
  split
  · apply Build.Yields.pure Entries.allText_nil
  · apply Build.Yields.bind
    intro w
    apply Build.Yields.pure
    exact Entries.allText_cons.2 ⟨⟨name, rfl, h⟩, Entries.allText_nil⟩

end Value

namespace Request

open Value (vectorOptions tagOptions)

/-- A vector search has its form, whatever it is given. -/
theorem yields_knnPayload (field vector options : Value) :
  Build.Yields Value.IsVectorSearch (Clause.knnPayload field vector options)
  := by
  apply Build.Yields.bind
  intro items
  apply Build.Yields.bind
  intro k
  apply Build.Yields.bind
  intro candidates
  have hmem : "filter" ∈ vectorOptions ∧ "boost" ∈ vectorOptions ∧ "similarity" ∈ vectorOptions := by
    decide
  refine (options.yields_whenTrue hmem.1).andThen ?_
  intro filter hfilter
  refine (options.yields_whenTrue hmem.2.1).andThen ?_
  intro boost hboost
  refine (options.yields_whenPresent hmem.2.2).andThen ?_
  intro similarity hsimilarity
  apply Build.Yields.pure
  use .str field.display, items, k, candidates, filter ++ boost ++ similarity, .new
  constructor
  · simp only [List.cons_append, List.nil_append, List.append_assoc]
  · apply (hfilter.append hboost).append hsimilarity

/-- A highlighting has its form, whatever it is given. -/
theorem yields_highlighting (fields options : Value) :
  Build.Yields Value.IsHighlighting (highlighting fields options)
  := by
  apply Build.Yields.bind
  intro items
  apply Build.Yields.bind
  intro entries
  have hmem : "pre_tags" ∈ tagOptions ∧ "post_tags" ∈ tagOptions := by decide
  refine (options.orEmpty.yields_whenTrue hmem.1).andThen ?_
  intro preTags hpre
  refine (options.orEmpty.yields_whenTrue hmem.2).andThen ?_
  intro postTags hpost
  apply Build.Yields.pure
  use .dict (Entries.ofPairs entries), preTags ++ postTags, .new, rfl
  constructor
  · exact ⟨_, _, rfl⟩
  · apply hpre.append hpost

end Request

/-! ### Root queries -/

/-- A clause of another kind than a boolean query is a root query. -/
theorem Value.IsClause.isRootQuery {v : Value} (h : v.IsClause) :
  v.IsRootQuery
  := by
  obtain ⟨kind, payload, hkind, rfl⟩ := h
  use kind, payload, .new, rfl
  intro hbool
  exact absurd hbool hkind

/-- The payload of a boolean query may be empty. -/
theorem Value.isBoolPayload_empty :
  empty.IsBoolPayload
  := ⟨[], .new, rfl, Entries.allText_nil⟩

/-- A payload is one also where it is made anew. -/
theorem Value.IsBoolPayload.orEmpty {v : Value} (h : v.IsBoolPayload) :
  v.orEmpty.IsBoolPayload
  := by
  rw [Value.orEmpty, orElse]
  split
  · apply h
  · apply isBoolPayload_empty

/-- A boolean query with a payload is a root query. -/
theorem Value.IsBoolPayload.isRootQuery {v : Value} (h : v.IsBoolPayload) :
  (Fragment.bool v).IsRootQuery
  := ⟨"bool", v, .new, rfl, fun _ => h⟩

/-- A step of a boolean query keeps the form of its payload, whatever its callback returns. -/
theorem BoolQuery.yields_isBoolPayload {b : BoolQuery} (h : b.state.IsBoolPayload) (step : Step) :
  Build.Yields (fun c : BoolQuery => c.state.IsBoolPayload) (b.apply step)
  := by
  obtain ⟨state⟩ := b
  obtain ⟨es, i, rfl, hes⟩ := h
  cases step with
  | clause occurrence inner =>
    apply Build.Yields.bind
    intro clause
    simp only [State.append, Value.get_dict, Value.mapping_dict, Value.key_str, Build.liftM_ok,
      pure_bind, bind_assoc]
    apply Build.Yields.bind
    intro items
    apply Build.Yields.pure
    refine ⟨_, .new, rfl, hes.insert ?_⟩
    right
    use ⟨occurrence, rfl⟩, items ++ [clause], .new, rfl
    simp
  | minimumShouldMatch value =>
    simp only [apply, State.set_dict, Build.liftM_ok, pure_bind]
    apply Build.Yields.pure
    refine ⟨_, .new, rfl, hes.insert ?_⟩
    left
    rfl

namespace Request

/-- The boolean query at the root, or an empty one, has its form. -/
theorem isBoolPayload_root {old : Option Value} (h : ∀ v, old = some v → v.IsRootQuery) :
  (BoolQuery.ofState (rootPayload old)).state.IsBoolPayload
  := by
  cases old with
  | none => apply Value.isBoolPayload_empty
  | some v =>
    obtain ⟨kind, payload, i, rfl, hbool⟩ := h v rfl
    rw [BoolQuery.ofState, rootPayload, Entries.find?_cons]
    split
    · rename_i heq
      apply (hbool (Name.text.inj heq)).orEmpty
    · apply Value.isBoolPayload_empty

/-! ### Sorting -/

/-- The items to sort by are the items of a list, and none where there is nothing yet. -/
theorem items_of_sorting {old : Option Value} (h : ∀ v, old = some v → v.IsSorting) :
  ∃ items, ((old.getD .null).orElse (.list [])).items = .ok items ∧
    ∀ item ∈ items, ∃ key direction j, item = .dict [(key, direction)] j
  := by
  cases old with
  | none =>
    use [], rfl
    intro item hitem
    cases hitem
  | some v =>
    obtain ⟨items, i, rfl, hitems, hall⟩ := h v rfl
    use items
    constructor
    · cases items with
      | nil => exact absurd rfl hitems
      | cons item items => rfl
    · apply hall

/-- A sorting step adds an item of the form that those before it have. -/
theorem yields_isSorting {old : Option Value} (h : ∀ v, old = some v → v.IsSorting)
    (field direction : Value) :
  Build.Yields Value.IsSorting (Step.value old (.sort field direction))
  := by
  obtain ⟨items, hitems, hall⟩ := items_of_sorting h
  rw [Step.value, hitems]
  apply Build.Yields.bind
  intro key
  apply Build.Yields.pure
  use items ++ [.single key direction], .new, rfl
  constructor
  · simp
  · intro item hitem
    obtain hitem | hitem := List.mem_append.1 hitem
    · apply hall item hitem
    · use key, direction, .new
      apply List.mem_singleton.1 hitem

end Request

/-! ### Composed aggregations and suggestions -/

namespace Aggregations

/-- The value is aggregations that some steps come to, or what these build, whichever lists and
dictionaries hold it. -/
def Composed (v : Value) : Prop :=
  ∃ steps calls a, (new.run steps calls).result = .ok a ∧
    (v.contents = a.toValue.contents ∨ v.contents = a.build.contents)

/-- Composed aggregations and what they build are taken for a dictionary. -/
theorem Composed.entriesOf {v : Value} (h : Composed v) (operation : String) :
  ∃ w, Fragment.entriesOf operation v = .ok w ∧ w.IsDict
  := by
  obtain ⟨steps, calls, a, ha, hv⟩ := h
  have hnodes : a.nodes.IsDict := yields_run Value.isDict_empty steps calls a ha
  obtain hv | hv := hv
  · rw [toValue] at hv
    cases v with
    | aggregations nodes last i =>
      use nodes, rfl
      apply hnodes.of_contents
      injection hv
    | _ => cases hv
  · obtain ⟨es, i, rfl⟩ := hnodes.copy.of_contents hv
    exact ⟨_, rfl, es, i, rfl⟩

end Aggregations

namespace Suggestions

/-- The value is suggestions that some steps come to, or what these build, whichever lists and
dictionaries hold it. -/
def Composed (v : Value) : Prop :=
  ∃ steps s, new.run steps = .ok s ∧
    (v.contents = s.toValue.contents ∨ v.contents = s.build.contents)

/-- Composed suggestions and what they build are taken for a dictionary. -/
theorem Composed.suggestionsOf {v : Value} (h : Composed v) :
  ∃ w, Request.suggestionsOf v = .ok w ∧ w.IsDict
  := by
  obtain ⟨steps, s, hs, hv⟩ := h
  have hstate : s.state.IsDict := isDict_run Value.isDict_empty hs
  obtain hv | hv := hv
  · rw [toValue] at hv
    cases v with
    | suggestions state i =>
      use state, rfl
      apply hstate.of_contents
      injection hv
    | _ => cases hv
  · obtain ⟨es, i, rfl⟩ : v.IsDict := (Value.isDict_single _ _).of_contents hv
    rw [build, Value.contents_dict, Value.single, Value.contents_dict] at hv
    injection hv with hes
    obtain ⟨e, es', rfl, he, hnil⟩ := List.map_eq_cons_iff.1 hes
    obtain rfl : es' = [] := List.map_eq_nil_iff.1 hnil
    obtain ⟨key, w⟩ := e
    injection he with hkey hw
    cases key with
    | text name =>
      obtain rfl : name = "suggest" := Key.text.inj hkey
      use w, rfl
      apply hstate.copy.of_contents hw
    | _ => cases hkey

end Suggestions

namespace Request

/-- The callbacks of aggregations and suggestions return what some steps come to. -/
def Step.Composes : Step → Prop
  | .aggs inner => (inner Aggregations.new.toValue).Yields Aggregations.Composed
  | .suggest inner => (inner Suggestions.new.toValue).Yields Suggestions.Composed
  | _ => True

/-! ### Requests -/

/-- A step files a value of the form of its target, where it finds one. -/
theorem yields_form {step : Step} (hstep : step.Composes) {old : Option Value}
    (hold : ∀ v, old = some v → Form step.target v) :
  Build.Yields (Form step.target) (step.value old)
  := by
  cases step with
  | query c => exact (Clause.yields_fragment c).mono fun v hv => hv.isRootQuery
  | newBool => exact Build.Yields.pure Value.isBoolPayload_empty.isRootQuery
  | bool step =>
    exact (BoolQuery.yields_isBoolPayload (isBoolPayload_root hold) step).andThen
      fun _ hpayload => Build.Yields.pure hpayload.isRootQuery
  | knn field vector options => apply yields_knnPayload
  | sort field direction => apply yields_isSorting hold
  | set parameter value =>
    apply Build.Yields.pure
    cases parameter
    all_goals trivial
  | source fields => exact Build.Yields.lift fun _ _ => trivial
  | highlight fields options => apply yields_highlighting
  | aggs inner =>
    refine Build.Yields.andThen hstep ?_
    intro v hv
    obtain ⟨w, hw, hdict⟩ := hv.entriesOf "aggs"
    rw [hw]
    exact Build.Yields.pure hdict
  | suggest inner =>
    refine Build.Yields.andThen hstep ?_
    intro v hv
    obtain ⟨w, hw, hdict⟩ := hv.suggestionsOf
    rw [hw]
    exact Build.Yields.pure hdict

/-- A step keeps the form of all entries. -/
theorem yields_hasForm_file {es : Dict} (h : HasForm es) {step : Step} (hstep : step.Composes) :
  Build.Yields HasForm (file es step)
  := by
  refine (yields_form hstep fun v hv => (h.of_find? hv).2).andThen ?_
  intro v hv
  apply Build.Yields.pure
  apply h.insert ⟨target_mem step, hv⟩

/-- A run of composing steps keeps the form of all entries. -/
theorem yields_hasForm {es : Dict} (h : HasForm es) {steps : List Step}
    (hsteps : ∀ step ∈ steps, step.Composes) :
  Build.Yields HasForm (steps.foldlM file es)
  := Build.Yields.foldlM (fun _ step hstep hes => yields_hasForm_file hes (hsteps step hstep)) h

/-- A request builds a dictionary in which every entry is filed under a name of requests and has
the form of its name, where the callbacks of aggregations and suggestions return what was composed
from those that they are given. -/
theorem document_hasForm (steps : List Step) (calls : Calls) (r : Request)
    (hsteps : ∀ step ∈ steps, step.Composes) (h : (new.run steps calls).result = .ok r) :
  r.build = .ok (.dict r.document) ∧ r.document.Distinct ∧ HasForm r.document
  := by
  obtain ⟨hbuild, hnames⟩ := names_document h
  use hbuild
  constructor
  · rw [Entries.Distinct, hnames]
    apply nodup_eraseDups
  · obtain ⟨es, rfl, hes⟩ := result_run h
    obtain ⟨htexts, -⟩ := yields_targets steps calls es hes
    have hform : HasForm es := yields_hasForm Entries.allText_nil hsteps calls es hes
    rw [document_dict htexts]
    change HasForm (es.map fun e => (id e.1, e.2.copy))
    apply hform.map fun _ => rfl
    rintro name v ⟨hname, hv⟩
    exact ⟨hname, hv.copy⟩

/-- What the callback of some steps returns is composed. -/
theorem composes_callback (steps : List Aggregations.Step) (built : Bool) :
  (Step.aggs (Aggregations.callback steps built)).Composes
  := by
  intro calls v hv
  obtain ⟨a, ha, hreturn⟩ := Build.exists_of_bind_ok hv
  obtain rfl : _ = v := Except.ok.inj hreturn
  use steps, calls, a, ha
  cases built with
  | false =>
    left
    rfl
  | true =>
    right
    rfl

/-- A clause that is replaced by a boolean query, with what other steps file beside it. -/
theorem document_of_many_targets :
  ∃ r, (new.run [.query (.leaf .matchAll),
      .bool (.clause .filter fun _ => pure (.single "match_all" .empty)),
      .knn (.str "v") (.list []) .empty, .sort (.str "day") (.str "asc"), .set .size (.int 5),
      .highlight (.list [.str "title"]) (.single "pre_tags" (.str "<b>")),
      .aggs (Aggregations.callback [.add (.str "x") (.topHits .null)] true),
      .suggest fun _ => pure Suggestions.new.build] fun _ _ _ => .of (.ok .null)).result = .ok r ∧
    HasForm r.document
  := by
  let steps : List Step := [.query (.leaf .matchAll),
    .bool (.clause .filter fun _ => pure (.single "match_all" .empty)),
    .knn (.str "v") (.list []) .empty, .sort (.str "day") (.str "asc"), .set .size (.int 5),
    .highlight (.list [.str "title"]) (.single "pre_tags" (.str "<b>")),
    .aggs (Aggregations.callback [.add (.str "x") (.topHits .null)] true),
    .suggest fun _ => pure Suggestions.new.build]
  let calls : Calls := fun _ _ _ => .of (.ok .null)
  have hsuggest : (Step.suggest fun _ => pure Suggestions.new.build).Composes := by
    apply Build.Yields.pure
    use [], Suggestions.new, rfl
    right
    rfl
  have hsteps : ∀ step ∈ steps, step.Composes := by
    simp only [steps, List.forall_mem_cons]
    use trivial, trivial, trivial, trivial, trivial, trivial, composes_callback _ _, hsuggest
    apply List.forall_mem_nil
  obtain ⟨r, hr⟩ : ∃ r, (new.run steps calls).result = .ok r := ⟨_, rfl⟩
  use r, hr
  apply (document_hasForm steps calls r hsteps hr).2.2

end Request

end SearchDsl
