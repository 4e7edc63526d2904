import SearchDsl.Proofs.BoolQuery
import SearchDsl.Proofs.Clause

/-!
# Ways of embedding a query

The clause inside another one may come from its callback in several ways: as the dictionary that
the factory makes, as a request whose root query it is, and a boolean query also as itself or
as what it builds.  `ClauseTree.deliver` follows a choice of ways made position by position,
and `ClauseTree.translation` is the dictionary of the tree without regard to any.  What is
built is the translation, whatever the choice (`ClauseTree.document_eq_translation`).
-/

namespace SearchDsl

/-! ### Trees of clauses -/

mutual

/-- A clause with the clauses inside it. -/
inductive ClauseTree where
  | leaf (l : Leaf)
  | bool (parts : List TreePart)
  | nested (path : Value) (inner : ClauseTree) (options : Value)
  | constantScore (inner : ClauseTree) (options : Value)
  | scriptScore (inner : ClauseTree) (script options : Value)

/-- A part of a boolean query in a tree. -/
inductive TreePart where
  | clause (occurrence : Occurrence) (tree : ClauseTree)
  | minimumShouldMatch (value : Value)

end

mutual

/-- The dictionary of a tree. -/
def ClauseTree.translation : ClauseTree → Build Value
  | .leaf l => l.fragment
  | .bool parts => do return Fragment.bool (.dict (BoolQuery.payload (← partTranslations parts)))
  | .nested path inner options => do
    let query ← inner.translation
    return .single "nested" (← Value.withOptions [("path", path), ("query", query)] options)
  | .constantScore inner options => do
    let filter ← inner.translation
    return .single "constant_score" (← Value.withOptions [("filter", filter)] options)
  | .scriptScore inner script options => do
    let query ← inner.translation
    let start : Dict := [("query", query), ("script", ← Clause.scriptPayload script)]
    let minScore ← options.orEmpty.whenPresent "min_score"
    let boost ← options.orEmpty.whenTrue "boost"
    return .single "script_score" (.dict (start ++ minScore ++ boost))

/-- The part with the dictionary of its tree. -/
def TreePart.translation : TreePart → Build BoolQuery.Part
  | .clause occurrence tree => do return .clause occurrence (← tree.translation)
  | .minimumShouldMatch value => pure (.minimumShouldMatch value)

/-- The parts with the dictionaries of their trees. -/
def partTranslations : List TreePart → Build (List BoolQuery.Part)
  | [] => pure []
  | part :: parts => do
    let first ← part.translation
    return first :: (← partTranslations parts)

end

/-! ### Ways -/

/-- How a clause that is no boolean query comes from a callback. -/
inductive ClauseRoute where
  /-- As the dictionary that the factory makes. -/
  | factory
  /-- As a request with the clause as its root query. -/
  | request

/-- How a boolean query comes from a callback. -/
inductive BoolRoute where
  /-- As a boolean query. -/
  | builder
  /-- As what the boolean query builds. -/
  | built
  /-- As what the factory makes of an empty boolean query. -/
  | factory
  /-- As a request whose root query it is. -/
  | request

/-- A choice of ways for every position of a tree, which is the path of the places on the way to
it. -/
structure Routes where
  clause : List Nat → ClauseRoute
  bool : List Nat → BoolRoute

/-- The choice for the positions below a place. -/
def Routes.below (routes : Routes) (place : Nat) : Routes :=
  ⟨fun path => routes.clause (place :: path), fun path => routes.bool (place :: path)⟩

/-- A clause that comes in a given way. -/
def ClauseRoute.deliver (route : ClauseRoute) (c : Clause) : Build Value :=
  match route with
  | .factory => c.fragment
  | .request => do return (← Request.new.run [.query c]).toValue

/-- The callback that applies steps to the boolean query that it is given. -/
def BoolQuery.callback (steps : List BoolQuery.Step) : Callback
  | .boolQuery state _ => do return (← BoolQuery.run ⟨state⟩ steps).toValue
  | v => pure v

/-- A boolean query that comes in a given way. -/
def BoolRoute.deliver (route : BoolRoute) (steps : List BoolQuery.Step) : Build Value :=
  match route with
  | .builder => do return (← BoolQuery.new.run steps).toValue
  | .built => do return (← BoolQuery.new.run steps).build
  | .factory => Clause.compound (BoolQuery.callback steps)
  | .request => do return (← Request.new.run (.newBool :: steps.map .bool)).toValue

mutual

/-- What a callback returns for a tree. -/
def ClauseTree.deliver (routes : Routes) : ClauseTree → Build Value
  | .leaf l => (routes.clause []).deliver (.leaf l)
  | .bool parts => (routes.bool []).deliver (partSteps routes 0 parts)
  | .nested path inner options =>
    (routes.clause []).deliver (.nested path (fun _ => inner.deliver (routes.below 0)) options)
  | .constantScore inner options =>
    (routes.clause []).deliver (.constantScore (fun _ => inner.deliver (routes.below 0)) options)
  | .scriptScore inner script options =>
    (routes.clause []).deliver
      (.scriptScore (fun _ => inner.deliver (routes.below 0)) script options)

/-- The step of a part. -/
def TreePart.step (routes : Routes) : TreePart → BoolQuery.Step
  | .clause occurrence tree => .clause occurrence fun _ => tree.deliver routes
  | .minimumShouldMatch value => .minimumShouldMatch value

/-- The steps of some parts, the first of which stands at the given place. -/
def partSteps (routes : Routes) (place : Nat) : List TreePart → List BoolQuery.Step
  | [] => []
  | part :: parts => part.step (routes.below place) :: partSteps routes (place + 1) parts

end

/-- What is built at the root: of a request the query of its document. -/
def Fragment.document : Value → Build Value
  | .request state withQuery _ => do
    (← Request.build ⟨state, withQuery⟩).get (.str "query")
  | .boolQuery state _ => pure (BoolQuery.build ⟨state⟩)
  | v => pure v

/-! ### What comes of each way -/

/-- A dictionary is absorbed as it is. -/
theorem Value.IsDict.absorb {v : Value} (h : v.IsDict) :
  Fragment.absorb v = pure v
  := by
  obtain ⟨es, i, rfl⟩ := h
  rfl

/-- A dictionary is built as it is. -/
theorem Value.IsDict.document {v : Value} (h : v.IsDict) :
  Fragment.document v = pure v
  := by
  obtain ⟨es, i, rfl⟩ := h
  rfl

/-- A request is absorbed as its root query, which is null where there is none. -/
@[simp]
theorem Fragment.absorb_request (es : Dict) (i j : Identity) (withQuery : Bool) :
  Fragment.absorb (.request (.dict es i) withQuery j) = pure ((es.find? "query").getD .null)
  := rfl

/-- A boolean query is absorbed as its fragment. -/
@[simp]
theorem Fragment.absorb_boolQuery (state : Value) (i : Identity) :
  Fragment.absorb (.boolQuery state i) = pure (Fragment.bool state)
  := rfl

/-- A boolean query is built as a copy of its fragment. -/
@[simp]
theorem Fragment.document_boolQuery (state : Value) (i : Identity) :
  Fragment.document (.boolQuery state i) = pure (Fragment.bool state).copy
  := rfl

/-- A request whose only entry is a query is built as a copy of the query. -/
theorem Fragment.document_request (v : Value) (i j : Identity) :
  Fragment.document (.request (.dict [("query", v)] i) true j) = pure v.copy
  := by
  have hbuild : Request.build ⟨.dict [("query", v)] i, true⟩ =
      .ok (.dict [("query", v.copy)] i.copied) := by
    change Except.ok (Value.copy _) = _
    rw [Value.copy_dict]
    rfl
  rw [document, hbuild]
  rfl

/-- A request that is given one clause has its fragment for the only entry. -/
theorem Request.run_query (c : Clause) :
  Request.new.run [.query c] = do return ⟨.dict [("query", ← c.fragment)], true⟩
  := by
  unfold run
  rw [List.foldlM_cons, apply]
  simp only [bind_assoc]
  congr 1

/-- A clause is absorbed as its own fragment, whichever way it comes. -/
theorem ClauseRoute.absorb_deliver (route : ClauseRoute) (c : Clause) :
  route.deliver c >>= Fragment.absorb = c.fragment
  := by
  cases route with
  | factory =>
    apply Build.Yields.bind_eq (Clause.yields_fragment c)
    intro v hv
    apply hv.isDict.absorb
  | request =>
    rw [deliver, Request.run_query]
    simp only [bind_assoc, pure_bind, Request.toValue, Fragment.absorb_request]
    apply bind_pure

/-- What is built of a clause has the contents of its fragment, whichever way it comes. -/
theorem ClauseRoute.document_deliver (route : ClauseRoute) (c : Clause) :
  Value.contents <$> (route.deliver c >>= Fragment.document) = Value.contents <$> c.fragment
  := by
  cases route with
  | factory =>
    congr 1
    apply Build.Yields.bind_eq (Clause.yields_fragment c)
    intro v hv
    apply hv.isDict.document
  | request =>
    rw [deliver, Request.run_query]
    simp only [bind_assoc, pure_bind, Request.toValue, Fragment.document_request, map_bind,
      map_pure, Value.contents_copy]
    rw [map_eq_pure_bind]

/-- Steps of the empty boolean query make the payload of their parts. -/
theorem BoolQuery.run_new (steps : List BoolQuery.Step) :
  BoolQuery.new.run steps = do
    return ⟨.dict (BoolQuery.payload (← steps.mapM BoolQuery.Step.part))⟩
  := BoolQuery.run_eq [] steps

/-- Boolean steps after an empty boolean query make a request with the payload of their parts. -/
theorem Request.run_newBool (steps : List BoolQuery.Step) :
  Request.new.run (.newBool :: steps.map .bool) = do
    return ⟨.dict [("query", Fragment.bool (.dict
      (BoolQuery.payload (← steps.mapM BoolQuery.Step.part))))], true⟩
  := by
  have h := Request.run_bool_eq [] true [] steps
  have hnew : new.apply .newBool = pure ⟨.dict [("query", Fragment.bool .empty)], true⟩ := rfl
  unfold run at h ⊢
  rw [List.foldlM_cons, hnew, pure_bind]
  apply h

/-- What comes of a boolean query is made of the payload of its parts, and it is absorbed and built
as the fragment with that payload, whichever way it comes. -/
theorem BoolRoute.deliver_eq (route : BoolRoute) (steps : List BoolQuery.Step) :
  ∃ result : Dict → Value,
    (route.deliver steps = do
      return result (BoolQuery.payload (← steps.mapM BoolQuery.Step.part))) ∧
    ∀ es, Value.contents <$> Fragment.absorb (result es) =
        pure (Fragment.bool (.dict es)).contents ∧
      Value.contents <$> Fragment.document (result es) =
        pure (Fragment.bool (.dict es)).contents
  := by
  cases route with
  | builder =>
    use fun es => .boolQuery (.dict es)
    constructor
    · rw [deliver, BoolQuery.run_new]
      simp only [bind_assoc, pure_bind, BoolQuery.toValue]
    · intro es
      simp only [Fragment.absorb_boolQuery, Fragment.document_boolQuery, map_pure,
        Value.contents_copy, and_self]
  | built =>
    use fun es => (Fragment.bool (.dict es)).copy
    constructor
    · rw [deliver, BoolQuery.run_new]
      simp only [bind_assoc, pure_bind, BoolQuery.build, BoolQuery.fragment, State.snapshot]
    · intro es
      have hdict : (Fragment.bool (.dict es)).copy.IsDict := by
        rw [Fragment.bool, Value.single, Value.copy_dict]
        exact ⟨_, _, rfl⟩
      simp only [hdict.absorb, hdict.document, map_pure, Value.contents_copy, and_self]
  | factory =>
    use fun es => Fragment.bool (.dict es)
    constructor
    · have hcallback : BoolQuery.callback steps (.boolQuery .empty) = do
          return (← BoolQuery.new.run steps).toValue := rfl
      rw [deliver, Clause.compound, Callback.fragment, hcallback, BoolQuery.run_new]
      simp only [bind_assoc, pure_bind, BoolQuery.toValue, Fragment.absorb_boolQuery]
    · intro es
      have hdict := Value.isDict_single "bool" (.dict es)
      have habsorb : Fragment.absorb (Fragment.bool (.dict es)) = _ := hdict.absorb
      have hdocument : Fragment.document (Fragment.bool (.dict es)) = _ := hdict.document
      rw [habsorb, hdocument]
      exact ⟨rfl, rfl⟩
  | request =>
    use fun es => .request (.dict [("query", Fragment.bool (.dict es))]) true
    constructor
    · rw [deliver, Request.run_newBool]
      simp only [bind_assoc, pure_bind, Request.toValue]
    · intro es
      rw [Fragment.absorb_request, Fragment.document_request, map_pure, map_pure,
        Value.contents_copy]
      exact ⟨rfl, rfl⟩

/-- The fragment of a boolean query with the parts that some steps come to. -/
def BoolQuery.fragmentOf (steps : List BoolQuery.Step) : Build Value := do
  return Fragment.bool (.dict (BoolQuery.payload (← steps.mapM BoolQuery.Step.part)))

/-- A boolean query is absorbed with the contents of its fragment, whichever way it comes. -/
theorem BoolRoute.absorb_deliver (route : BoolRoute) (steps : List BoolQuery.Step) :
  Value.contents <$> (route.deliver steps >>= Fragment.absorb) =
    Value.contents <$> BoolQuery.fragmentOf steps
  := by
  obtain ⟨result, hdeliver, hresult⟩ := route.deliver_eq steps
  rw [hdeliver, BoolQuery.fragmentOf]
  simp only [bind_assoc, pure_bind, map_bind, (hresult _).1, map_pure]

/-- What is built of a boolean query has the contents of its fragment, whichever way it comes. -/
theorem BoolRoute.document_deliver (route : BoolRoute) (steps : List BoolQuery.Step) :
  Value.contents <$> (route.deliver steps >>= Fragment.document) =
    Value.contents <$> BoolQuery.fragmentOf steps
  := by
  obtain ⟨result, hdeliver, hresult⟩ := route.deliver_eq steps
  rw [hdeliver, BoolQuery.fragmentOf]
  simp only [bind_assoc, pure_bind, map_bind, (hresult _).2, map_pure]

/-! ### Parts of the same contents -/

namespace BoolQuery

/-- A part with the contents of its fragment. -/
def Part.contents : Part → Part
  | .clause occurrence fragment => .clause occurrence fragment.contents
  | .minimumShouldMatch value => .minimumShouldMatch value

/-- The slot of a part does not depend on what its fragment is held by. -/
theorem slot_contents (part : Part) :
  part.contents.slot = part.slot
  := by
  cases part with
  | clause occurrence fragment => rfl
  | minimumShouldMatch value => rfl

/-- The fragment of a part with contents is the one with contents. -/
theorem fragment?_contents (occurrence : Occurrence) (part : Part) :
  part.contents.fragment? occurrence = (part.fragment? occurrence).map Value.contents
  := by
  cases part with
  | clause o fragment =>
    rw [Part.contents, Part.fragment?, Part.fragment?]
    split
    · rfl
    · rfl
  | minimumShouldMatch value => rfl

/-- A minimum is the same in a part with contents. -/
theorem minimum?_contents (part : Part) :
  part.contents.minimum? = part.minimum?
  := by
  cases part with
  | clause occurrence fragment => rfl
  | minimumShouldMatch value => rfl

/-- What is filed in a slot has the same contents for parts with contents. -/
theorem contents_slotValue (parts : List Part) (slot : Option Occurrence) :
  (slotValue (parts.map Part.contents) slot).contents = (slotValue parts slot).contents
  := by
  cases slot with
  | some occurrence =>
    have hfragments : (parts.map Part.contents).filterMap (Part.fragment? occurrence) =
        (parts.filterMap (Part.fragment? occurrence)).map Value.contents := by
      rw [List.filterMap_map, List.map_filterMap]
      congr 1
      funext part
      apply fragment?_contents
    rw [slotValue, slotValue, hfragments, Value.contents_list, Value.contents_list, List.map_map]
    congr 1
    apply List.map_congr_left
    intro v _
    apply Value.contents_contents
  | none =>
    have hminima : (parts.map Part.contents).filterMap Part.minimum? =
        parts.filterMap Part.minimum? := by
      rw [List.filterMap_map]
      congr 1
      funext part
      apply minimum?_contents
    rw [slotValue, slotValue, hminima]

/-- Parts with contents make a payload of the same contents. -/
theorem payload_contents_alike (parts : List Part) :
  Entries.Alike (payload (parts.map Part.contents)) (payload parts)
  := by
  have hslots : (parts.map Part.contents).map Part.slot = parts.map Part.slot := by
    rw [List.map_map]
    apply List.map_congr_left
    intro part _
    apply slot_contents
  unfold Entries.Alike payload Entries.mapValues
  rw [hslots, List.map_map, List.map_map]
  apply List.map_congr_left
  intro slot _
  apply congrArg (Prod.mk (slotKey slot)) (contents_slotValue parts slot)

/-- Parts of the same contents make payloads of the same contents. -/
theorem payload_alike {parts others : List Part}
    (h : parts.map Part.contents = others.map Part.contents) :
  Entries.Alike (payload parts) (payload others)
  := by
  have hparts := payload_contents_alike parts
  rw [h] at hparts
  apply hparts.symm.trans (payload_contents_alike others)

end BoolQuery

/-! ### Whatever the choice of ways -/

/-- Dictionaries of one entry have the same contents where their values have. -/
theorem Value.contents_single {v w : Value} (h : v.contents = w.contents) (kind : Key) :
  (Value.single kind v).contents = (Value.single kind w).contents
  := ((Entries.Alike.refl []).insert kind h).contents_dict .new .new

/-- A payload is the same under options where what they are merged into is the same. -/
theorem withOptions_alike {start other : Dict} (h : start.Alike other) (kind : Key)
    (options : Value) :
  Value.contents <$> (liftM (Value.withOptions start options) >>=
      fun payload => (pure (.single kind payload) : Build Value)) =
    Value.contents <$> (liftM (Value.withOptions other options) >>=
      fun payload => (pure (.single kind payload) : Build Value))
  := by
  unfold Value.withOptions Value.extend
  cases options.orEmpty.mapping with
  | error fault => rfl
  | ok es =>
    have hmerged := (h.merge (Entries.Alike.refl es)).contents_dict .new .new
    apply congrArg (Pure.pure : Value → Build Value) (Value.contents_single hmerged kind)

mutual

/-- What a callback returns for a tree is absorbed as the translation of the tree. -/
theorem ClauseTree.absorb_deliver (t : ClauseTree) (routes : Routes) :
  Value.contents <$> (t.deliver routes >>= Fragment.absorb) = Value.contents <$> t.translation
  := by
  match t with
  | .leaf l =>
    rw [ClauseTree.deliver, ClauseTree.translation, ClauseRoute.absorb_deliver, Clause.fragment]
  | .bool parts =>
    rw [ClauseTree.deliver, ClauseTree.translation, BoolRoute.absorb_deliver]
    apply Build.map_bind_congr (parts_partSteps parts routes 0)
    intro ps qs h
    have hpayload := (BoolQuery.payload_alike h).contents_dict .new .new
    rw [map_pure, map_pure, Fragment.bool, Value.contents_single hpayload, Fragment.bool]
  | .nested path inner options =>
    rw [ClauseTree.deliver, ClauseTree.translation, ClauseRoute.absorb_deliver]
    apply Build.map_bind_congr (inner.absorb_deliver (routes.below 0))
    intro v w h
    apply withOptions_alike
    apply (Entries.Alike.refl [(.text "path", path)]).insert "query" h
  | .constantScore inner options =>
    rw [ClauseTree.deliver, ClauseTree.translation, ClauseRoute.absorb_deliver]
    apply Build.map_bind_congr (inner.absorb_deliver (routes.below 0))
    intro v w h
    apply withOptions_alike
    apply (Entries.Alike.refl []).insert "filter" h
  | .scriptScore inner script options =>
    rw [ClauseTree.deliver, ClauseTree.translation, ClauseRoute.absorb_deliver]
    apply Build.map_bind_congr (inner.absorb_deliver (routes.below 0))
    intro v w h
    simp only [map_bind, map_pure]
    congr 1
    funext body
    congr 1
    funext minScore
    congr 1
    funext boost
    have hpayload := (Entries.Alike.refl
      ((.text "script", body) :: ([] ++ minScore ++ boost))).cons "query" h
    apply congrArg (Pure.pure : Value → Build Value)
    apply Value.contents_single (hpayload.contents_dict .new .new)

/-- The step of a part of a tree comes to its translation, whatever the choice of ways. -/
theorem TreePart.part_step (p : TreePart) (routes : Routes) :
  BoolQuery.Part.contents <$> (p.step routes).part = BoolQuery.Part.contents <$> p.translation
  := by
  match p with
  | .clause occurrence tree =>
    rw [TreePart.step, TreePart.translation, BoolQuery.Step.part]
    apply Build.map_bind_congr (tree.absorb_deliver routes)
    intro v w h
    rw [map_pure, map_pure, BoolQuery.Part.contents, h, BoolQuery.Part.contents]
  | .minimumShouldMatch value =>
    rw [TreePart.step, TreePart.translation, BoolQuery.Step.part]

/-- The steps of the parts of a tree come to their translations, whatever the choice of ways. -/
theorem parts_partSteps (parts : List TreePart) (routes : Routes) (place : Nat) :
  List.map BoolQuery.Part.contents <$> (partSteps routes place parts).mapM BoolQuery.Step.part =
    List.map BoolQuery.Part.contents <$> partTranslations parts
  := by
  match parts with
  | [] => rw [partSteps, partTranslations, List.mapM_nil]
  | part :: parts =>
    rw [partSteps, partTranslations, List.mapM_cons]
    apply Build.map_bind_congr (part.part_step (routes.below place))
    intro first first' hfirst
    apply Build.map_bind_congr (parts_partSteps parts routes (place + 1))
    intro rest rest' hrest
    rw [map_pure, map_pure, List.map_cons, List.map_cons, hfirst, hrest]

end

/-! ### Trees that do not fail -/

mutual

/-- No leaf of the tree fails, and what is made of the options beside its clauses does not. -/
def ClauseTree.Sound : ClauseTree → Prop
  | .leaf l => Build.Succeeds l.fragment
  | .bool parts => PartsSound parts
  | .nested _ inner options => inner.Sound ∧ ∃ es, options.orEmpty.mapping = .ok es
  | .constantScore inner options => inner.Sound ∧ ∃ es, options.orEmpty.mapping = .ok es
  | .scriptScore inner script options =>
    inner.Sound ∧ Build.Succeeds (Clause.scriptPayload script) ∧
      Build.Succeeds (options.orEmpty.whenPresent "min_score") ∧
      Build.Succeeds (options.orEmpty.whenTrue "boost")

/-- No tree in the part fails. -/
def TreePart.Sound : TreePart → Prop
  | .clause _ tree => tree.Sound
  | .minimumShouldMatch _ => True

/-- No tree in the parts fails. -/
def PartsSound : List TreePart → Prop
  | [] => True
  | part :: parts => part.Sound ∧ PartsSound parts

end

/-- A payload with options that are a dictionary or nothing can be made. -/
theorem succeeds_withOptions {options : Value} {es : Dict} (h : options.orEmpty.mapping = .ok es)
    (start : Dict) (kind : Key) :
  Build.Succeeds (liftM (Value.withOptions start options) >>=
    fun payload => (pure (.single kind payload) : Build Value))
  := by
  rw [Value.withOptions_of_mapping h, Build.liftM_ok, pure_bind]
  apply Build.Succeeds.pure

mutual

/-- A sound tree has a translation. -/
theorem ClauseTree.Sound.translation (t : ClauseTree) (h : t.Sound) :
  Build.Succeeds t.translation
  := by
  match t with
  | .leaf l =>
    rw [ClauseTree.Sound] at h
    rw [ClauseTree.translation]
    apply h
  | .bool parts =>
    rw [ClauseTree.Sound] at h
    rw [ClauseTree.translation]
    apply Build.Succeeds.bind (PartsSound.translations parts h)
    intro ps
    apply Build.Succeeds.pure
  | .nested path inner options =>
    rw [ClauseTree.Sound] at h
    obtain ⟨hinner, es, hes⟩ := h
    rw [ClauseTree.translation]
    apply Build.Succeeds.bind (ClauseTree.Sound.translation inner hinner)
    intro query
    apply succeeds_withOptions hes
  | .constantScore inner options =>
    rw [ClauseTree.Sound] at h
    obtain ⟨hinner, es, hes⟩ := h
    rw [ClauseTree.translation]
    apply Build.Succeeds.bind (ClauseTree.Sound.translation inner hinner)
    intro filter
    apply succeeds_withOptions hes
  | .scriptScore inner script options =>
    rw [ClauseTree.Sound] at h
    obtain ⟨hinner, hscript, hminScore, hboost⟩ := h
    rw [ClauseTree.translation]
    apply Build.Succeeds.bind (ClauseTree.Sound.translation inner hinner)
    intro query
    apply Build.Succeeds.bind hscript
    intro body
    apply Build.Succeeds.bind hminScore
    intro minScore
    apply Build.Succeeds.bind hboost
    intro boost
    apply Build.Succeeds.pure

/-- A sound part of a tree has a translation. -/
theorem TreePart.Sound.translation (p : TreePart) (h : p.Sound) :
  Build.Succeeds p.translation
  := by
  match p with
  | .clause occurrence tree =>
    rw [TreePart.Sound] at h
    rw [TreePart.translation]
    apply Build.Succeeds.bind (ClauseTree.Sound.translation tree h)
    intro fragment
    apply Build.Succeeds.pure
  | .minimumShouldMatch value =>
    rw [TreePart.translation]
    apply Build.Succeeds.pure

/-- Sound parts of a tree have translations. -/
theorem PartsSound.translations (parts : List TreePart) (h : PartsSound parts) :
  Build.Succeeds (partTranslations parts)
  := by
  match parts with
  | [] =>
    rw [partTranslations]
    apply Build.Succeeds.pure
  | part :: parts =>
    rw [PartsSound] at h
    rw [partTranslations]
    apply Build.Succeeds.bind (TreePart.Sound.translation part h.1)
    intro first
    apply Build.Succeeds.bind (PartsSound.translations parts h.2)
    intro rest
    apply Build.Succeeds.pure

end

/-! ### The document -/

/-- What is built at the root is what would be absorbed. -/
theorem ClauseTree.document_eq_absorb (t : ClauseTree) (routes : Routes) :
  Value.contents <$> (t.deliver routes >>= Fragment.document) =
    Value.contents <$> (t.deliver routes >>= Fragment.absorb)
  := by
  cases t with
  | leaf l =>
    rw [ClauseTree.deliver, ClauseRoute.document_deliver, ClauseRoute.absorb_deliver]
  | bool parts => rw [ClauseTree.deliver, BoolRoute.document_deliver, BoolRoute.absorb_deliver]
  | nested path inner options =>
    rw [ClauseTree.deliver, ClauseRoute.document_deliver, ClauseRoute.absorb_deliver]
  | constantScore inner options =>
    rw [ClauseTree.deliver, ClauseRoute.document_deliver, ClauseRoute.absorb_deliver]
  | scriptScore inner script options =>
    rw [ClauseTree.deliver, ClauseRoute.document_deliver, ClauseRoute.absorb_deliver]

/-- Whatever the choice of ways, a tree that does not fail builds a document, and the document is the
translation of the tree.  Where something in the tree fails, it fails in the same way. -/
theorem ClauseTree.document_eq_translation (t : ClauseTree) (routes : Routes) :
  Value.contents <$> (t.deliver routes >>= Fragment.document) = Value.contents <$> t.translation ∧
    (t.Sound → Build.Succeeds (t.deliver routes >>= Fragment.document))
  := by
  have hsame : Value.contents <$> (t.deliver routes >>= Fragment.document) =
      Value.contents <$> t.translation := by
    rw [t.document_eq_absorb routes, t.absorb_deliver routes]
  constructor
  · apply hsame
  · intro h
    apply (ClauseTree.Sound.translation t h).of_map_eq hsame

/-- A boolean query within a nested one within a boolean query, each of which comes in another
way. -/
theorem ClauseTree.document_of_mixed_ways :
  Build.Succeeds
    (ClauseTree.deliver ⟨fun _ => .request, fun path => if path.isEmpty then .built else .factory⟩
      (.bool [.clause .must (.nested (.str "notes")
        (.bool [.clause .should (.leaf (.term (.str "notes.by") (.str "me")))]) .null),
        .minimumShouldMatch (.int 1)]) >>=
      Fragment.document)
  := by
  apply (ClauseTree.document_eq_translation _ _).2
  have hleaf : Build.Succeeds (Leaf.term (.str "notes.by") (.str "me")).fragment := by
    intro calls
    use .single "term" (.single "notes.by" (.str "me"))
    rfl
  simp only [ClauseTree.Sound, PartsSound, TreePart.Sound, and_true]
  constructor
  · apply hleaf
  · use []
    rfl

end SearchDsl
