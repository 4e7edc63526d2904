import SearchDsl.Proofs.Request.Contents
import SearchDsl.Proofs.Request.Settled
import SearchDsl.Proofs.Script.Evaluation
import SearchDsl.Script.Method

/-!
# Chains of operations on a request

A script calls operations one after the other, each of what the one before gives
(`Script.Expr.chain`).  Between two calls it evaluates the arguments, gives numbers to what is new
and looks up what has been changed in place, while a run (`Request.run`) goes from step to step.
Where nothing is changed in place, that makes no difference: a chain on a request evaluates to what
the run of the steps comes to that its calls ask for (`Script.eval_chain_endsAs`), and builds a
document of the same contents (`Script.EndsAs.build`).

The arguments may be any expressions, and callbacks among them may compose other requests.  A step
finds the lists and dictionaries of the steps before it under numbers, which do not matter to it
(`Request.Alike.apply`), and its callbacks are called from a memory in which more numbers are taken,
which does not matter to them (`Script.callWithin_of_unchanged`).
-/

namespace SearchDsl

namespace Script

/-! ### Chains -/

/-- A call of an operation in a chain. -/
structure Link where
  name : String
  args : List Expr
  named : Expr

/-- The calls of a chain, each of what the one before gives. -/
def Expr.chain (e : Expr) (links : List Link) : Expr :=
  links.foldl (fun e link => .call e link.name link.args link.named) e

namespace Link

variable (call : Memory → Calls) (scope : Scope) (link : Link)

/-- What the arguments of a call denote. -/
def arguments : Run (List Value × Value) := do
  let args ← Expr.evalList call scope link.args
  return (args, ← link.named.eval call scope)

/-- Calls the operation of a value. -/
def follow (receiver : Value) : Run Value := do
  let (args, named) ← link.arguments call scope
  Run.apply call ((← Run.current receiver).method? link.name) args named

end Link

/-- The calls of a chain on a value. -/
def followAll (call : Memory → Calls) (scope : Scope) (links : List Link) (v : Value) :
    Run Value :=
  links.foldlM (fun v link => link.follow call scope v) v

theorem Link.keepsDepth_arguments (call : Memory → Calls) (scope : Scope) (link : Link) :
  (link.arguments call scope).KeepsDepth
  := by
  apply (Expr.keepsDepth_evalList call scope link.args).bind
  intro args
  apply (Expr.keepsDepth_eval call scope link.named).bind
  intro named
  apply Run.KeepsDepth.pure

theorem Link.keepsDepth_follow (call : Memory → Calls) (scope : Scope) (link : Link) (v : Value) :
  (link.follow call scope v).KeepsDepth
  := by
  apply (link.keepsDepth_arguments call scope).bind
  rintro ⟨args, named⟩
  apply (Run.KeepsDepth.current v).bind
  intro w
  apply Run.KeepsDepth.apply

theorem followAll_nil (call : Memory → Calls) (scope : Scope) :
  followAll call scope [] = pure
  := rfl

theorem followAll_cons (call : Memory → Calls) (scope : Scope) (link : Link) (links : List Link)
    (v : Value) :
  followAll call scope (link :: links) v =
    link.follow call scope v >>= followAll call scope links
  := List.foldlM_cons

/-- A chain is evaluated from its receiver, one call after the other. -/
theorem eval_chain (call : Memory → Calls) (scope : Scope) (e : Expr) (links : List Link) :
  (e.chain links).eval call scope = e.eval call scope >>= followAll call scope links
  := by
  induction links generalizing e with
  | nil => rw [followAll_nil, bind_pure, Expr.chain, List.foldl_nil]
  | cons link links ih =>
    have hchain : e.chain (link :: links) =
        (Expr.call e link.name link.args link.named).chain links := rfl
    rw [hchain, ih, Expr.eval, funext (followAll_cons call scope link links)]
    simp only [Link.follow, Link.arguments, bind_assoc, pure_bind]

/-! ### Steps by name -/

/-- The step that a call of an operation of a request stands for. -/
def stepOf (name : String) (args : List Value) (named : Value) : Except Fault Request.Step :=
  match requestForm? name with
  | none => .error .noSuchMember
  | some form => do return form.make (← form.signature.bind args (← namedArguments named))

theorem method?_of_requestForm? {name : String} {form : Form Request.Step}
    (h : requestForm? name = some form) (state : Value) (withQuery : Bool) (i : Identity) :
  (Value.request state withQuery i).method? name =
    some (form.map fun step => Request.toValue <$> (⟨state, withQuery⟩ : Request).apply step)
  := by
  change requestMethod? ⟨state, withQuery⟩ name = _
  unfold requestMethod?
  split
  · cases h
  · cases h
  · cases h
  · cases h
  · rw [h]
    rfl

variable {name : String} {args : List Value} {named : Value} {step : Request.Step}

theorem exists_form_of_stepOf (h : stepOf name args named = .ok step) :
  ∃ form b es, requestForm? name = some form ∧ namedArguments named = .ok es ∧
    form.signature.bind args es = .ok b ∧ form.make b = step
  := by
  unfold stepOf at h
  split at h
  · cases h
  · rename_i form hform
    cases hes : namedArguments named with
    | error fault =>
      rw [hes] at h
      cases h
    | ok es =>
      rw [hes] at h
      cases hb : form.signature.bind args es with
      | error fault =>
        change (form.signature.bind args es).bind _ = _ at h
        rw [hb] at h
        cases h
      | ok b =>
        change (form.signature.bind args es).bind _ = _ at h
        rw [hb] at h
        exact ⟨form, b, es, hform, rfl, hb, Except.ok.inj h⟩

/-- Calling an operation of a request applies the step that it stands for. -/
theorem applyMethod_of_stepOf (h : stepOf name args named = .ok step) (state : Value)
    (withQuery : Bool) (i : Identity) :
  applyMethod ((Value.request state withQuery i).method? name) args named =
    Request.toValue <$> (⟨state, withQuery⟩ : Request).apply step
  := by
  obtain ⟨form, b, es, hform, hes, hb, rfl⟩ := exists_form_of_stepOf h
  rw [method?_of_requestForm? hform, applyMethod, hes]
  simp only [Build.liftM_ok, pure_bind, Form.map, hb]

theorem hasSettled_of_clauseForm? {form : Form Clause} (h : clauseForm? name = some form)
    (b : Bound) :
  (form.make b).HasSettled
  := by
  unfold clauseForm? at h
  split at h
  all_goals
    cases h
    all_goals first
      | apply trivial
      | apply Callback.settled_call

theorem hasSettled_of_boolForm? {form : Form BoolQuery.Step} (h : boolForm? name = some form)
    (b : Bound) :
  (form.make b).HasSettled
  := by
  unfold boolForm? at h
  split at h
  all_goals
    cases h
    all_goals first
      | apply trivial
      | apply Callback.settled_call

theorem hasSettled_of_requestPartForm? {form : Form Request.Step}
    (h : requestPartForm? name = some form) (b : Bound) :
  (form.make b).HasSettled
  := by
  unfold requestPartForm? at h
  split at h
  all_goals
    cases h
    all_goals first
      | apply trivial
      | apply Callback.settled_call

/-- The callbacks that a step is given by name are calls of values. -/
theorem hasSettled_of_stepOf (h : stepOf name args named = .ok step) :
  step.HasSettled
  := by
  obtain ⟨form, b, es, hform, -, -, rfl⟩ := exists_form_of_stepOf h
  unfold requestForm? at hform
  cases hclause : clauseForm? name with
  | some clause =>
    rw [hclause] at hform
    cases hform
    apply hasSettled_of_clauseForm? hclause
  | none =>
    cases hbool : boolForm? name with
    | some bool =>
      rw [hclause, hbool] at hform
      cases hform
      apply hasSettled_of_boolForm? hbool
    | none =>
      cases hparameter : parameter? name with
      | some parameter =>
        rw [hclause, hbool, hparameter] at hform
        cases hform
        apply trivial
      | none =>
        rw [hclause, hbool, hparameter] at hform
        apply hasSettled_of_requestPartForm? hform

/-! ### Values that are requests -/

/-- The value is a request of the same contents. -/
def IsLike (v : Value) (q : Request) : Prop :=
  ∃ (r : Request) (i : Identity), v = .request r.state r.withQuery i ∧ r.Alike q

theorem IsLike.of_contents {v : Value} {r q : Request} (h : v.contents = r.toValue.contents)
    (hrq : r.Alike q) :
  IsLike v q
  := by
  cases v with
  | request state withQuery i =>
    have hr : Value.request state.contents withQuery .new =
      .request r.state.contents r.withQuery .new := h
    injection hr with hstate hwithQuery
    use ⟨state, withQuery⟩, i, rfl
    exact ⟨hwithQuery.trans hrq.withQuery, hstate.trans hrq.contents, hrq.continues⟩
  | _ => cases h

/-- A value that is a request of the same contents has these contents. -/
theorem IsLike.contents {v : Value} {q : Request} (h : IsLike v q) :
  v.contents = q.toValue.contents
  := by
  obtain ⟨r, i, rfl, hrq⟩ := h
  change Value.request r.state.contents r.withQuery .new =
    .request q.state.contents q.withQuery .new
  rw [hrq.contents, hrq.withQuery]

/-! ### Chains that ask for steps -/

/-- The calls of a chain on `v` ask for some steps: each for the one that its arguments denote once
the calls before it are done.  Evaluating the arguments reports nothing and changes nothing. -/
inductive Asks (call : Memory → Calls) (scope : Scope) :
    Session → Value → List Link → List Request.Step → Prop where
  | nil (s : Session) (v : Value) : Asks call scope s v [] []
  | cons {s s' : Session} {v named : Value} {link : Link} {links : List Link} {args : List Value}
      {step : Request.Step} {steps : List Request.Step}
      (arguments : (link.arguments call scope).run s = (.ok (args, named), s'))
      (silent : s'.warnings = s.warnings) (unchanged : s'.memory.Unchanged)
      (asked : stepOf link.name args named = .ok step)
      (rest : ∀ w t, (link.follow call scope v).run s = (.ok w, t) →
        Asks call scope t w links steps) :
      Asks call scope s v (link :: links) (step :: steps)

/-- Whatever its arguments are, a call that asks for a step takes the step. -/
theorem run_follow {call : Memory → Calls} {scope : Scope} {s s' : Session} {link : Link}
    (arguments : (link.arguments call scope).run s = (.ok (args, named), s'))
    (unchanged : s'.memory.Unchanged) (asked : stepOf link.name args named = .ok step)
    (r : Request) (i : Identity) :
  (link.follow call scope (.request r.state r.withQuery i)).run s =
    (Run.make call (Request.toValue <$> r.apply step)).run s'
  := by
  have hcurrent : (Run.current (.request r.state r.withQuery i)).run s' =
      (.ok (s'.memory.current (.request r.state r.withQuery i)), s') := rfl
  rw [unchanged.current] at hcurrent
  rw [Link.follow, Run.run_bind_ok arguments]
  dsimp only
  rw [Run.run_bind_ok hcurrent, Run.run_apply unchanged, applyMethod_of_stepOf asked]

variable {env : Env} {depth : Nat} {scope : Scope}

/-- An evaluation from `s` ends as a build does: it has reported as many warnings and changed
nothing, and it has failed alike or come to a request of the same contents. -/
structure EndsAs (s : Session) (o : Outcome Request) (ended : Except Fault Value × Session) :
    Prop where
  warnings : ended.2.warnings = s.warnings + o.warnings
  unchanged : ended.2.memory.Unchanged
  result : (∃ fault, o.result = .error fault ∧ ended.1 = .error fault) ∨
    ∃ q v, o.result = .ok q ∧ ended.1 = .ok v ∧ IsLike v q

/-- An operation that makes a request and changes nothing ends as one does that makes a request of
the same contents. -/
theorem endsAs_make {call : Memory → Calls} {s : Session} (hs : s.memory.Unchanged)
    {x y : Build Request} (h : Build.Matches Request.Alike x y)
    (hnone : (y (call s.memory)).changes = []) :
  EndsAs s (y (call s.memory)) ((Run.make call (Request.toValue <$> x)).run s)
  := by
  obtain ⟨hwarnings, hchanges, hresult⟩ := h (call s.memory)
  have hmap : ((Request.toValue <$> x) (call s.memory)).changes = [] := by
    rw [Build.map_apply, hchanges, hnone]
  obtain ⟨fault, hx, hy⟩ | ⟨r, q, hx, hy, hrq⟩ := hresult
  · have hfail : ((Request.toValue <$> x) (call s.memory)).result = .error fault := by
      rw [Build.map_apply, hx]
      rfl
    rw [Run.run_make_of_error hmap hfail, Build.map_apply, hwarnings]
    constructor
    · rfl
    · apply hs
    · left
      use fault, hy
  · have hmake : ((Request.toValue <$> x) (call s.memory)).result = .ok r.toValue := by
      rw [Build.map_apply, hx]
      rfl
    rw [Run.run_make_of_ok hs hmap hmake, Build.map_apply, hwarnings]
    constructor
    · rfl
    · exact hs.adopt r.toValue
    · right
      use q, (s.memory.adopt r.toValue).1, hy, rfl
      apply IsLike.of_contents (s.memory.contents_adopt _) hrq

/-- A call that asks for a step and changes nothing in place ends as the step does, in any memory
without changes of the same depth. -/
theorem endsAs_follow {s s' : Session} {link : Link}
    (arguments : (link.arguments (callWithin env depth) scope).run s = (.ok (args, named), s'))
    (silent : s'.warnings = s.warnings) (unchanged : s'.memory.Unchanged)
    (asked : stepOf link.name args named = .ok step) {v : Value} {q : Request} (hv : IsLike v q)
    {m : Memory} (hm : m.Unchanged) (hdepth : s.memory.next.depth = m.next.depth)
    (hnone : (q.apply step (callWithin env depth m)).changes = []) :
  EndsAs s (q.apply step (callWithin env depth m))
    ((link.follow (callWithin env depth) scope v).run s)
  := by
  obtain ⟨r, i, rfl, hrq⟩ := hv
  have hdepth' : m.next.depth = s'.memory.next.depth := by
    have hkeeps := Link.keepsDepth_arguments (callWithin env depth) scope link s
    rw [arguments] at hkeeps
    rw [← hdepth, ← hkeeps]
  have hcalls := callWithin_of_unchanged env depth hm unchanged hdepth'
  have hsame := Request.settled_apply q (hasSettled_of_stepOf asked) _ _ hcalls hnone
  rw [← hsame] at hnone ⊢
  rw [run_follow arguments unchanged asked]
  obtain ⟨hwarnings, hunchanged, hresult⟩ := endsAs_make unchanged (hrq.apply step) hnone
  constructor
  · rw [hwarnings, silent]
  · apply hunchanged
  · apply hresult

/-- A chain that asks for some steps and changes nothing in place ends as the steps do, in any
memory without changes. -/
theorem endsAs_followAll {s : Session} {v : Value} {links : List Link}
    {steps : List Request.Step} (h : Asks (callWithin env depth) scope s v links steps)
    (hs : s.memory.Unchanged) {q : Request} (hv : IsLike v q) {m : Memory} (hm : m.Unchanged)
    (hdepth : s.memory.next.depth = m.next.depth)
    (hnone : (q.run steps (callWithin env depth m)).changes = []) :
  EndsAs s (q.run steps (callWithin env depth m))
    ((followAll (callWithin env depth) scope links v).run s)
  := by
  induction h generalizing q with
  | nil s v =>
    constructor
    · rfl
    · apply hs
    · right
      use q, v, rfl, rfl
  | @cons s s' v named link links args step steps arguments silent unchanged asked rest ih =>
    have hcons : q.run (step :: steps) = q.apply step >>= fun q' => q'.run steps :=
      List.foldlM_cons
    rw [hcons] at hnone ⊢
    rw [followAll_cons]
    obtain ⟨hstep, hrest⟩ := Build.bind_of_unchanged hnone
    have hends := endsAs_follow arguments silent unchanged asked hv hm hdepth hstep
    have hkeeps := Link.keepsDepth_follow (callWithin env depth) scope link v s
    rcases hrun : (link.follow (callWithin env depth) scope v).run s with ⟨result, t⟩
    rw [hrun] at hends hkeeps
    obtain ⟨hwarnings, ht, ⟨fault, hq, rfl⟩ | ⟨q', w, hq, rfl, hw⟩⟩ := hends
    · obtain ⟨cause, hcause, heq⟩ | ⟨q', hq', -⟩ := hrest
      · obtain rfl : fault = cause := Except.error.inj (hq.symm.trans hcause)
        rw [Run.run_bind_error hrun, heq]
        constructor
        · apply hwarnings
        · apply ht
        · left
          use fault
      · rw [hq] at hq'
        cases hq'
    · obtain ⟨cause, hcause, -⟩ | ⟨q'', hq'', hnone', heq⟩ := hrest
      · rw [hq] at hcause
        cases hcause
      · obtain rfl : q' = q'' := Except.ok.inj (hq.symm.trans hq'')
        rw [Run.run_bind_ok hrun, heq]
        obtain ⟨hwarnings', hunchanged, hresult⟩ :=
          ih w t hrun ht hw (hkeeps.trans hdepth) hnone'
        constructor
        · rw [hwarnings', hwarnings, Nat.add_assoc]
        · apply hunchanged
        · apply hresult

/-- A chain of operations on a request that changes nothing in place evaluates to what the run of
the steps comes to that it asks for: the warnings are the same, and so is the fault or, but for the
identities in it, the request. -/
theorem eval_chain_endsAs {e : Expr} {links : List Link} {steps : List Request.Step}
    {s s' : Session} {v : Value} {q : Request}
    (receiver : (e.eval (callWithin env depth) scope).run s = (.ok v, s'))
    (unchanged : s'.memory.Unchanged) (hv : IsLike v q)
    (asked : Asks (callWithin env depth) scope s' v links steps)
    (hnone : (q.run steps (callWithin env depth s'.memory)).changes = []) :
  EndsAs s' (q.run steps (callWithin env depth s'.memory))
    (((e.chain links).eval (callWithin env depth) scope).run s)
  := by
  rw [eval_chain, Run.run_bind_ok receiver]
  apply endsAs_followAll asked unchanged hv unchanged rfl hnone

/-- A request that is asked to build gives what it builds, with new numbers. -/
theorem run_build (call : Memory → Calls) (scope : Scope) {s : Session} (hs : s.memory.Unchanged)
    {r : Request} {d : Value} (hd : r.build = .ok d) (i : Identity) :
  ∃ v t, (Link.follow call scope ⟨"build", [], .dict []⟩
      (.request r.state r.withQuery i)).run s = (.ok v, t) ∧
    v.contents = d.contents ∧ t.warnings = s.warnings
  := by
  -- The arguments are none by position, and by name those of an empty dictionary that is new.
  let t : Session := ⟨s.warnings, (s.memory.adopt .empty).2⟩
  have ht : t.memory.Unchanged := hs.adopt .empty
  have harguments : (Link.arguments call scope ⟨"build", [], .dict []⟩).run s =
      (.ok ([], (s.memory.adopt .empty).1), t) := by
    rw [Link.arguments, Expr.evalList, Expr.eval, Expr.evalEntries]
    rfl
  have hcurrent : (Run.current (.request r.state r.withQuery i)).run t =
      (.ok (t.memory.current (.request r.state r.withQuery i)), t) := rfl
  rw [ht.current] at hcurrent
  have hmethod : applyMethod ((Value.request r.state r.withQuery i).method? "build") []
      (s.memory.adopt .empty).1 = liftM r.build := rfl
  have hbuild : (liftM r.build : Build Value) (call t.memory) = .of (.ok d) := by
    rw [hd]
    rfl
  have hmake := Run.run_make_of_ok ht (congrArg Outcome.changes hbuild)
    (congrArg Outcome.result hbuild)
  rw [hbuild] at hmake
  use (t.memory.adopt d).1, ⟨s.warnings, (t.memory.adopt d).2⟩
  constructor
  · rw [Link.follow, Run.run_bind_ok harguments]
    dsimp only
    rw [Run.run_bind_ok hcurrent, Run.run_apply ht, hmethod, hmake]
    rfl
  · exact ⟨Memory.contents_adopt _ d, rfl⟩

/-- Where an evaluation ends as a run, the request builds a document with the contents of that which
comes of the run. -/
theorem EndsAs.build {call : Memory → Calls} {e : Expr} {s t : Session} {o : Outcome Request}
    (h : EndsAs t o ((e.eval call scope).run s)) {q : Request} (hq : o.result = .ok q) :
  ∃ d v t', q.build = .ok d ∧
    ((Expr.call e "build" [] (.dict [])).eval call scope).run s = (.ok v, t') ∧
    v.contents = d.contents ∧ t'.warnings = t.warnings + o.warnings
  := by
  rcases hrun : (e.eval call scope).run s with ⟨result, s'⟩
  rw [hrun] at h
  obtain ⟨hwarnings, hunchanged, ⟨fault, hfault, -⟩ | ⟨q', v, hq', rfl, r, i, rfl, hrq⟩⟩ := h
  · rw [hq] at hfault
    cases hfault
  · obtain rfl : q = q' := Except.ok.inj (hq.symm.trans hq')
    obtain ⟨d, w, hd, hw, hdw⟩ := hrq.build
    obtain ⟨v, t', hbuilt, hvd, ht'⟩ := run_build call scope hunchanged hd i
    use w, v, t', hw
    have hcall : (Expr.call e "build" [] (.dict [])) =
        e.chain [⟨"build", [], .dict []⟩] := rfl
    constructor
    · rw [hcall, eval_chain, Run.run_bind_ok hrun, followAll_cons, followAll_nil, bind_pure]
      apply hbuilt
    · exact ⟨hvd.trans hdw, ht'.trans hwarnings⟩

/-! ### A chain with a callback -/

/-- Sorts by a field. -/
def sortByField : Link := ⟨"sort", [.str "f"], .dict []⟩

/-- The average of a field, of the aggregations with the name `a`. -/
def averageOfField : Expr := .call (.ref "a") "avg" [.str "x", .str "f"] (.dict [])

/-- Aggregates with a function. -/
def aggregateField : Link := ⟨"aggs", [.function "a" averageOfField], .dict []⟩

/-- The steps that the two calls ask for, where three numbers are taken before. -/
def sortedAverage : List Request.Step :=
  [.sort (.str "f") (.str "asc"), .aggs (Build.call (.function "a" averageOfField none (.known 8)))]

theorem asks_sortedAverage :
  Asks (callIn []) (.script []) ⟨0, ⟨3, [], []⟩⟩ (.request (.dict [] (.known 2)) true (.known 1))
    [sortByField, aggregateField] sortedAverage
  := by
  have hfield : (sortByField.arguments (callIn []) (.script [])).run ⟨0, ⟨3, [], []⟩⟩ =
      (.ok ([.str "f"], .dict [] (.known 3)), ⟨0, ⟨4, [], []⟩⟩) := rfl
  have hsort : (sortByField.follow (callIn []) (.script [])
      (.request (.dict [] (.known 2)) true (.known 1))).run ⟨0, ⟨3, [], []⟩⟩ =
      (.ok (.request
        (.dict [("sort", .list [.dict [("f", .str "asc")] (.known 7)] (.known 6))] (.known 5))
        true (.known 4)), ⟨0, ⟨8, [], []⟩⟩) := rfl
  have hfunction : (aggregateField.arguments (callIn []) (.script [])).run ⟨0, ⟨8, [], []⟩⟩ =
      (.ok ([.function "a" averageOfField none (.known 8)], .dict [] (.known 9)),
        ⟨0, ⟨10, [], []⟩⟩) := rfl
  apply Asks.cons hfield rfl ⟨rfl, rfl⟩ rfl
  intro w t h
  rw [hsort] at h
  cases h
  apply Asks.cons hfunction rfl ⟨rfl, rfl⟩ rfl
  intro w t _
  apply Asks.nil

/-- A new request that is sorted and aggregated with a function evaluates to the run of two
steps. -/
theorem endsAs_sortedAverage :
  EndsAs ⟨0, ⟨3, [], []⟩⟩ (Request.new.run sortedAverage (callIn [] ⟨3, [], []⟩))
    ((((Expr.create "query" [] (.dict [])).chain [sortByField, aggregateField]).eval (callIn [])
      (.script [])).run ⟨0, .empty⟩)
  := by
  have hreceiver : ((Expr.create "query" [] (.dict [])).eval (callIn []) (.script [])).run
      ⟨0, .empty⟩ =
      (.ok (.request (.dict [] (.known 2)) true (.known 1)), ⟨0, ⟨3, [], []⟩⟩) := rfl
  have hnew : IsLike (.request (.dict [] (.known 2)) true (.known 1)) .new :=
    IsLike.of_contents (r := .new) rfl ⟨rfl, rfl, [], .new, rfl, Request.continues_none⟩
  have hnone : (Request.new.run sortedAverage (callIn [] ⟨3, [], []⟩)).changes = [] := by
    decide +kernel
  apply eval_chain_endsAs hreceiver ⟨rfl, rfl⟩ hnew asks_sortedAverage hnone

end Script

end SearchDsl
