import Mathlib.Tactic.Choose
import SearchDsl.MultiSearch
import SearchDsl.Proofs.Ndjson
import SearchDsl.Proofs.State
import SearchDsl.Script.Eval

/-!
# The lines of a multi-search

A search is given to a multi-search as a dictionary, whose body is resolved when the lines are
asked for, or by its body and its header, and then the body is resolved at once and what it
builds is resolved again with the lines.  The lines are the same either way, two for each search
(`MultiSearch.lines_alternate`): what a body builds builds nothing any more
(`MultiSearch.Body.yields`), so that resolving it again changes nothing.

A body has to build the same whenever it is resolved.  It does unless something is called for it
(`MultiSearch.Given.builds_of_ok`): a function that encodes lines may count its calls, and then the
way matters (`MultiSearch.not_lines_alternate`).
-/

namespace SearchDsl

/-- The value builds nothing: it is no object of this library that does, no search object, and
no function is held under the name of the operation. -/
def Value.BuildsNothing : Value → Prop
  | .search _ _ => False
  | .request _ _ _ => False
  | .boolQuery _ _ => False
  | .aggregations _ _ _ => False
  | .suggestions _ _ => False
  | .indexConfig _ _ => False
  | .bulk _ _ _ => False
  | .multiSearch _ _ _ => False
  | v => v.holdsFunction "build" = false

/-- The value is no multi-search, and no bulk request with an encoding that is asked for each
line. -/
def Value.BuildsAlone : Value → Prop
  | .bulk _ lineEncoding _ =>
    lineEncoding.truthy = false ∨ ∃ e i, lineEncoding = .encoding e i
  | .multiSearch _ _ _ => False
  | _ => True

theorem Value.IsDict.buildsNothing {v : Value} (h : v.IsDict) :
  v.BuildsNothing
  := by
  obtain ⟨es, i, rfl⟩ := h
  rfl

namespace MultiSearch

/-! ### Bodies -/

/-- What a body comes to: what it builds, where its state is a dictionary if that matters, the
dictionary of a search object, or itself. -/
inductive Body : Value → Build Value → Prop where
  | plain {v : Value} (h : v.BuildsNothing) : Body v (pure v)
  | search (parts : Dict) (indices : Option (List Value)) :
    Body (.search parts indices) (Search.bodyDictionary parts)
  | request {r : Request} (h : r.state.IsDict) (i : Identity) :
    Body (.request r.state r.withQuery i) r.build
  | boolQuery (b : BoolQuery) (i : Identity) : Body (.boolQuery b.state i) (pure b.build)
  | aggregations {a : Aggregations} (h : a.nodes.IsDict) (i : Identity) :
    Body (.aggregations a.nodes a.last i) (pure a.build)
  | suggestions (s : Suggestions) (i : Identity) : Body (.suggestions s.state i) (pure s.build)
  | indexConfig {c : IndexConfig} (h : c.state.IsDict) (i : Identity) :
    Body (.indexConfig c.state i) (pure c.build)
  | bulk (b : Bulk) (i : Identity) : Body (.bulk b.operations b.encoding i) (.str <$> b.build)
  | multiSearch (m : MultiSearch) (i : Identity) :
    Body (.multiSearch m.searches m.encoding i) (.str <$> m.build)

/-- A request is a body after any steps from an empty one. -/
theorem Body.request_of_run {withQuery : Bool} {steps : List Request.Step} {calls : Calls}
    {r : Request} (h : ((⟨.empty, withQuery⟩ : Request).run steps calls).result = .ok r) :
  Body r.toValue r.build
  := by
  apply Body.request
  apply Request.yields_run [] withQuery steps calls r h

theorem Body.aggregations_of_run {steps : List Aggregations.Step} {calls : Calls}
    {a : Aggregations} (h : (Aggregations.new.run steps calls).result = .ok a) :
  Body a.toValue (pure a.build)
  := by
  apply Body.aggregations
  apply Aggregations.yields_run Value.isDict_empty steps calls a h

theorem Body.indexConfig_of_run {steps : List IndexConfig.Step} {calls : Calls}
    {c : IndexConfig} (h : (IndexConfig.new.run steps calls).result = .ok c) :
  Body c.toValue (pure c.build)
  := by
  apply Body.indexConfig
  apply IndexConfig.yields_run Value.isDict_empty steps calls c h

theorem resolveWith_of_buildsNothing (called : Value → Build Value) {v : Value}
    (h : v.BuildsNothing) :
  resolveWith called v = pure v
  := by
  cases v with
  | search parts indices => cases h
  | request state withQuery i => cases h
  | boolQuery state i => cases h
  | aggregations nodes last i => cases h
  | suggestions state i => cases h
  | indexConfig state i => cases h
  | bulk operations encoding i => cases h
  | multiSearch searches encoding i => cases h
  | _ =>
    have hnone : Value.holdsFunction _ "build" = false := h
    simp [resolveWith, hnone]

/-- Resolving a body is what it comes to. -/
theorem Body.resolve_eq {v : Value} {x : Build Value} (h : Body v x) :
  resolve v = x
  := by
  cases h with
  | plain h => apply resolveWith_of_buildsNothing _ h
  | search parts indices => rfl
  | request h i => rfl
  | boolQuery b i => rfl
  | aggregations h i => rfl
  | suggestions s i => rfl
  | indexConfig h i => rfl
  | bulk b i => rw [map_eq_pure_bind]; rfl
  | multiSearch m i =>
    rw [resolve, resolveWith, build, lines]
    simp only [bind_assoc, pure_bind, map_eq_pure_bind]

theorem yields_text (x : Build String) :
  Build.Yields Value.BuildsNothing (Value.str <$> x)
  := by
  rw [map_eq_pure_bind]
  apply Build.Yields.bind
  intro s
  apply Build.Yields.pure
  rfl

/-- What a body comes to builds nothing any more. -/
theorem Body.yields {v : Value} {x : Build Value} (h : Body v x) :
  Build.Yields Value.BuildsNothing x
  := by
  cases h with
  | plain h => apply Build.Yields.pure h
  | search parts indices =>
    rw [Search.bodyDictionary, liftM_bind]
    apply Build.Yields.bind
    intro body
    apply Build.Yields.pure
    rfl
  | request h i =>
    exact (Request.yields_build h).mono fun _ hw => hw.buildsNothing
  | boolQuery b i =>
    apply Build.Yields.pure
    apply Value.IsDict.buildsNothing
    apply Value.IsDict.copy
    apply Value.isDict_single
  | aggregations h i => apply Build.Yields.pure h.copy.buildsNothing
  | suggestions s i =>
    apply Build.Yields.pure
    rfl
  | indexConfig h i => apply Build.Yields.pure h.copy.buildsNothing
  | bulk b i => apply yields_text
  | multiSearch m i => apply yields_text

/-- What a body that builds alone comes to does not depend on calls. -/
theorem Body.callsNothing {v : Value} {x : Build Value} (h : Body v x) (halone : v.BuildsAlone) :
  x.CallsNothing
  := by
  cases h with
  | bulk b i =>
    have hserializer := Ndjson.callsNothing_ofValue halone
    rw [map_eq_pure_bind]
    apply Build.CallsNothing.bind
    · apply (Build.CallsNothing.lift b.lines).bind
      apply hserializer.render
    · intro payload
      apply Build.CallsNothing.pure
  | multiSearch m i => cases halone
  | search parts indices => apply Build.CallsNothing.lift
  | request h i => apply Build.CallsNothing.lift
  | _ => apply Build.CallsNothing.pure

/-! ### Searches -/

/-- A search as it is given. -/
structure Given where
  header : Value
  body : Value

namespace Given

/-- The search as a dictionary. -/
def toValue (g : Given) (i : Identity) : Value :=
  .dict [("header", g.header), ("body", g.body)] i

/-- The body comes to a value, whatever is changed in place before. -/
def Builds (calls : Calls) (g : Given) (v : Value) : Prop :=
  ∃ x, Body g.body x ∧ x.AlwaysGives calls v

/-- What a body that builds alone comes to once, it comes to always. -/
theorem builds_of_ok {g : Given} {x : Build Value} (hx : Body g.body x)
    (halone : g.body.BuildsAlone) {calls : Calls} {v : Value} (hv : (x calls).result = .ok v) :
  g.Builds calls v
  := by
  use x, hx
  apply (hx.callsNothing halone).alwaysGives hv

/-- The search is stored as one with the same line for its header and a body that comes to the
same. -/
def StoredAs (calls : Calls) (built : Given → Value) (g : Given) (stored : Value) : Prop :=
  ∃ (s : Given) (i : Identity), stored = s.toValue i ∧ s.header.orEmpty = g.header.orEmpty ∧
    s.Builds calls (built g)

end Given

/-- The step adds the search. -/
inductive Step.Adds : Step → Given → Prop where
  | search (g : Given) (i : Identity) : Adds (.add (g.toValue i)) g
  | query (g : Given) : Adds (.addQuery g.body g.header) g

/-- A step stores the search that it adds. -/
theorem Step.Adds.alwaysGives {step : Step} {g : Given} (h : step.Adds g) {calls : Calls}
    {built : Given → Value} (hg : g.Builds calls (built g)) :
  ∃ stored, step.search.AlwaysGives calls stored ∧ g.StoredAs calls built stored
  := by
  cases h with
  | search g i =>
    use g.toValue i, Build.AlwaysGives.pure _ _
    use g, i
  | query g =>
    obtain ⟨x, hx, hgives⟩ := hg
    -- What is stored is resolved a second time with the lines, which leaves it as it is.
    have hplain : (built g).BuildsNothing := hx.yields _ _ (hgives [])
    let s : Given := ⟨g.header.orEmpty, built g⟩
    use s.toValue .new
    constructor
    · rw [Step.search, hx.resolve_eq]
      apply hgives.bind
      apply Build.AlwaysGives.pure
    · use s, .new, rfl, g.header.orEmpty_orEmpty
      use pure (built g), Body.plain hplain
      apply Build.AlwaysGives.pure

/-- A run stores the searches that its steps add, in order. -/
theorem run_alwaysGives {steps : List Step} {searches : List Given}
    (hsteps : List.Forall₂ Step.Adds steps searches) {calls : Calls} {built : Given → Value}
    (hbuilt : ∀ g ∈ searches, g.Builds calls (built g)) (m : MultiSearch) :
  ∃ stored, (m.run steps).AlwaysGives calls ⟨m.searches ++ stored, m.encoding⟩ ∧
    List.Forall₂ (Given.StoredAs calls built) searches stored
  := by
  induction hsteps generalizing m with
  | nil =>
    use []
    rw [List.append_nil]
    exact ⟨Build.AlwaysGives.pure m calls, .nil⟩
  | @cons step g steps searches hstep _ ih =>
    obtain ⟨hg, hothers⟩ := List.forall_mem_cons.1 hbuilt
    obtain ⟨first, hfirst, hstored⟩ := hstep.alwaysGives hg
    obtain ⟨rest, hrest, hall⟩ := ih hothers ⟨m.searches ++ [first], m.encoding⟩
    use first :: rest
    constructor
    · rw [run, List.foldlM_cons, apply, bind_assoc]
      apply hfirst.bind
      rw [pure_bind]
      rw [List.append_assoc, List.singleton_append] at hrest
      apply hrest
    · apply List.Forall₂.cons hstored hall

/-! ### Lines -/

/-- Two lines for each search: its header, or the empty dictionary, and what its body builds. -/
def alternating (built : Given → Value) (searches : List Given) : List Value :=
  searches.flatMap fun g => [g.header.orEmpty, built g]

theorem linesWith_alwaysGives {built : Given → Value} {calls : Calls} {searches : List Given}
    {stored : List Value}
    (h : List.Forall₂ (Given.StoredAs calls built) searches stored) :
  (linesWith (resolveWithin deepestAnswer) stored).AlwaysGives calls (alternating built searches)
  := by
  induction h with
  | nil => apply Build.AlwaysGives.pure
  | @cons g first searches stored hfirst _ ih =>
    obtain ⟨s, i, rfl, hheader, x, hx, hgives⟩ := hfirst
    have hbody : bodyWith (resolveWithin deepestAnswer) [("header", s.header), ("body", s.body)] =
        x := hx.resolve_eq
    rw [Given.toValue, linesWith, hbody]
    apply hgives.bind
    apply ih.bind
    have hline : headerOf [("header", s.header), ("body", s.body)] = g.header.orEmpty := hheader
    rw [hline]
    apply Build.AlwaysGives.pure

theorem length_alternating (built : Given → Value) (searches : List Given) :
  (alternating built searches).length = 2 * searches.length
  := by
  unfold alternating
  induction searches with
  | nil => rfl
  | cons g searches ih =>
    rw [List.flatMap_cons, List.length_append, ih, List.length_cons, List.length_cons,
      List.length_cons, List.length_nil]
    omega

theorem getElem?_alternating (built : Given → Value) {searches : List Given} {n : Nat} {g : Given}
    (h : searches[n]? = some g) :
  (alternating built searches)[2 * n]? = some g.header.orEmpty ∧
    (alternating built searches)[2 * n + 1]? = some (built g)
  := by
  unfold alternating
  induction searches generalizing n with
  | nil => cases h
  | cons first searches ih =>
    cases n with
    | zero =>
      obtain rfl : first = g := Option.some.inj h
      exact ⟨rfl, rfl⟩
    | succ n => apply ih h

/-- The lines of a multi-search that stores some searches. -/
theorem lines_alwaysGives {built : Given → Value} {calls : Calls} {searches : List Given}
    {stored : List Value}
    (h : List.Forall₂ (Given.StoredAs calls built) searches stored) (encoding : Value) :
  (⟨stored, encoding⟩ : MultiSearch).lines.AlwaysGives calls
    ((alternating built searches).map Value.copy)
  := by
  apply (linesWith_alwaysGives h).bind
  apply Build.AlwaysGives.pure

/-- The usual payload of lines that are always the same is always the same as well. -/
theorem result_build {stored lines : List Value} {calls : Calls}
    (h : (⟨stored, .null⟩ : MultiSearch).lines.AlwaysGives calls lines) (earlier : List Change) :
  ((⟨stored, .null⟩ : MultiSearch).build (calls.after earlier)).result =
    (Ndjson.render .compact lines calls).result
  := by
  have hrender := Ndjson.callsNothing_compact.render lines
  rw [build, Build.result_bind_of_ok (h earlier)]
  apply congrArg Outcome.result (hrender _ calls)

/-- Where every body always builds the same, a multi-search has two lines for each search, its
header or the empty dictionary and what its body builds, and neither the lines nor the payload
depend on the way in which the searches are added. -/
theorem lines_alternate {searches : List Given} {calls : Calls}
    (hbodies : ∀ g ∈ searches, ∃ v, g.Builds calls v) {steps others : List Step}
    (hsteps : List.Forall₂ Step.Adds steps searches)
    (hothers : List.Forall₂ Step.Adds others searches) :
  ∃ m n lines payload,
    ((new .null).run steps calls).result = .ok m ∧
    ((new .null).run others calls).result = .ok n ∧
    lines.length = 2 * searches.length ∧
    (∀ i g, searches[i]? = some g → ∃ v, g.Builds calls v ∧
      lines[2 * i]? = some g.header.orEmpty.copy ∧ lines[2 * i + 1]? = some v.copy) ∧
    ∀ earlier,
      (m.lines (calls.after earlier)).result = .ok lines ∧
      (n.lines (calls.after earlier)).result = .ok lines ∧
      (m.build (calls.after earlier)).result = payload ∧
      (n.build (calls.after earlier)).result = payload
  := by
  have hnonempty : Nonempty Value := ⟨.null⟩
  choose! built hbuilt using hbodies
  obtain ⟨stored, hm, hstored⟩ := run_alwaysGives hsteps hbuilt (new .null)
  obtain ⟨restored, hn, hrestored⟩ := run_alwaysGives hothers hbuilt (new .null)
  have hlines := lines_alwaysGives hstored .null
  have hrelines := lines_alwaysGives hrestored .null
  use ⟨stored, .null⟩, ⟨restored, .null⟩, (alternating built searches).map Value.copy,
    (Ndjson.render .compact ((alternating built searches).map Value.copy) calls).result,
    hm [], hn []
  constructor
  · rw [List.length_map, length_alternating]
  constructor
  · intro i g hg
    obtain ⟨hheader, hbody⟩ := getElem?_alternating built hg
    use built g, hbuilt g (List.mem_of_getElem? hg)
    rw [List.getElem?_map, List.getElem?_map, hheader, hbody]
    exact ⟨rfl, rfl⟩
  · intro earlier
    exact ⟨hlines earlier, hrelines earlier, result_build hlines earlier,
      result_build hrelines earlier⟩

/-- A request, a search object, a list and a bulk request as bodies, with headers of which two are
false as a condition. -/
theorem lines_of_mixed_bodies :
  ∃ m n lines payload,
    ((new .null).run [.addQuery (.request (.dict [("size", .int 5)]) true) .null,
      .add ((⟨.single "index" (.str "a"), .search [("query", .query "match_all" [])] none⟩ :
        Given).toValue .new),
      .addQuery (.list [.int 1]) (.str ""),
      .add ((⟨.single "index" (.str "b"), .bulk [] .null⟩ : Given).toValue .new)]
      (Script.callIn [] .empty)).result = .ok m ∧
    ((new .null).run [
      .add ((⟨.null, .request (.dict [("size", .int 5)]) true⟩ : Given).toValue .new),
      .addQuery (.search [("query", .query "match_all" [])] none) (.single "index" (.str "a")),
      .add ((⟨.str "", .list [.int 1]⟩ : Given).toValue .new),
      .addQuery (.bulk [] .null) (.single "index" (.str "b"))]
      (Script.callIn [] .empty)).result = .ok n ∧
    lines.length = 8 ∧
    (m.lines (Script.callIn [] .empty)).result = .ok lines ∧
    (n.lines (Script.callIn [] .empty)).result = .ok lines ∧
    (m.build (Script.callIn [] .empty)).result = payload ∧
    (n.build (Script.callIn [] .empty)).result = payload
  := by
  let calls : Calls := Script.callIn [] .empty
  let first : Given := ⟨.null, .request (.dict [("size", .int 5)]) true⟩
  let second : Given :=
    ⟨.single "index" (.str "a"), .search [("query", .query "match_all" [])] none⟩
  let third : Given := ⟨.str "", .list [.int 1]⟩
  let fourth : Given := ⟨.single "index" (.str "b"), .bulk [] .null⟩
  have hrun : ((⟨.empty, true⟩ : Request).run [.set .size (.int 5)] calls).result =
      .ok ⟨.dict [("size", .int 5)], true⟩ := rfl
  have hfirst : ∃ v, first.Builds calls v :=
    ⟨_, Given.builds_of_ok (g := first) (Body.request_of_run hrun) trivial rfl⟩
  have hsecond : ∃ v, second.Builds calls v :=
    ⟨_, Given.builds_of_ok (g := second) (Body.search _ none) trivial rfl⟩
  have hthird : ∃ v, third.Builds calls v :=
    ⟨_, Given.builds_of_ok (g := third) (Body.plain rfl) trivial rfl⟩
  have hfourth : ∃ v, fourth.Builds calls v :=
    ⟨_, Given.builds_of_ok (g := fourth) (Body.bulk ⟨[], .null⟩ .new) (Or.inl rfl) rfl⟩
  have hbodies : ∀ g ∈ [first, second, third, fourth], ∃ v, g.Builds calls v := by
    simp only [List.forall_mem_cons, hfirst, hsecond, hthird, hfourth, true_and]
    apply List.forall_mem_nil
  obtain ⟨m, n, lines, payload, hm, hn, hlength, -, hsame⟩ := lines_alternate hbodies
    (.cons (.query first) (.cons (.search second .new) (.cons (.query third)
      (.cons (.search fourth .new) .nil))))
    (.cons (.search first .new) (.cons (.query second) (.cons (.search third .new)
      (.cons (.query fourth) .nil))))
  use m, n, lines, payload, hm, hn, hlength
  apply hsame []

/-! ### A body that counts -/

/-- What names denote: `seen` is a list of the number 0. -/
def counting : Script.Env := [("seen", .list [] (.known 0))]

/-- A query object that encodes every line as `seen` after one more item is added to it. -/
def counter : Value :=
  .query "term" [("dumps", .function "line"
    (.orElse (.call (.ref "seen") "append" [.int 1] (.dict []))
      (.invoke "dumps_line" [.ref "seen"] (.dict [])))
    none (.known 1))]

/-- A search for a bulk request with one deletion, the lines of which the counter encodes. -/
def counted : Given :=
  ⟨.null, .bulk [.operation (.action .delete) (.single "_id" (.str "a")) .null] counter (.known 2)⟩

/-- The texts among the lines that a multi-search has after some steps. -/
def textsAfter (steps : List Step) (calls : Calls) : Except Fault (List (Option String)) :=
  ((new .null).run steps >>= lines) calls |>.result.map (List.map Value.text?)

/-- Where a body counts its calls, the lines depend on the way in which searches are added: the
first of two is resolved first where both are resolved at once, and last where the dictionary is
resolved with the lines. -/
theorem not_lines_alternate :
  ¬∀ (searches : List Given) (calls : Calls) (steps others : List Step),
    (∀ g ∈ searches, ∃ x v, Body g.body x ∧ (x calls).result = .ok v) →
    List.Forall₂ Step.Adds steps searches → List.Forall₂ Step.Adds others searches →
    (((new .null).run steps >>= lines) calls).result =
      (((new .null).run others >>= lines) calls).result
  := by
  intro h
  let calls : Calls := Script.callIn counting ⟨3, [], []⟩
  have hbuild : (resolve counted.body calls).result.map Value.text? = .ok (some "[1]\n") := by
    decide +kernel
  have hbody : ∃ x v, Body counted.body x ∧ (x calls).result = .ok v := by
    have hx : Body counted.body _ := Body.bulk ⟨_, counter⟩ (.known 2)
    rw [hx.resolve_eq] at hbuild
    cases hv : ((Value.str <$> Bulk.build ⟨_, counter⟩) calls).result with
    | error fault =>
      rw [hv] at hbuild
      cases hbuild
    | ok v => exact ⟨_, v, hx, hv⟩
  have hsame := h [counted, counted] calls
    [.addQuery counted.body .null, .addQuery counted.body .null]
    [.add (counted.toValue .new), .addQuery counted.body .null]
    (List.forall_mem_cons.2 ⟨hbody, List.forall_mem_singleton.2 hbody⟩)
    (.cons (.query counted) (.cons (.query counted) .nil))
    (.cons (.search counted .new) (.cons (.query counted) .nil))
  have hqueries : textsAfter [.addQuery counted.body .null, .addQuery counted.body .null] calls =
      .ok [none, some "[1]\n", none, some "[1,1]\n"] := by
    decide +kernel
  have hmixed : textsAfter [.add (counted.toValue .new), .addQuery counted.body .null] calls =
      .ok [none, some "[1,1]\n", none, some "[1]\n"] := by
    decide +kernel
  rw [textsAfter, hsame, ← textsAfter, hmixed] at hqueries
  revert hqueries
  decide

end MultiSearch

end SearchDsl
