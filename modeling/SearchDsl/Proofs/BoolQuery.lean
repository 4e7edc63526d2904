import SearchDsl.Proofs.Build
import SearchDsl.Proofs.Contents
import SearchDsl.Proofs.View
import SearchDsl.Request

/-!
# The payload of a boolean query

The steps of a boolean query come to parts, a fragment for each clause and a value for each
minimum (`BoolQuery.Step.part`).  What they build depends on the parts alone: the payload has one
slot for every occurrence that is used and one for the minimum, in the order of their first use,
with all fragments of an occurrence in order and the last minimum (`BoolQuery.payload`).  It is the
same whether the steps are applied to a boolean query (`BoolQuery.run_eq`) or to the one at the root
of a request (`Request.run_bool_eq`).
-/

namespace SearchDsl

/-! ### Filing one of several slots -/

namespace Entries

variable {ι κ α : Type} [DecidableEq ι] [Named κ]

/-- Among entries that are made slot by slot, filing one more value changes the value of its slot. -/
theorem insert_map {k : ι → κ} (inj : ∀ a b, Named.name (k a) = Named.name (k b) → a = b)
    (f : ι → α) (v : α) (a : ι) {l : List ι} (h : l.Nodup) :
  Entries.insert (k a) v (l.map fun b => (k b, f b)) =
    (if a ∈ l then l else l ++ [a]).map fun b => (k b, if b = a then v else f b)
  := by
  induction l with
  | nil => simp [Entries.insert]
  | cons b l ih =>
    obtain ⟨hb, hl⟩ := List.nodup_cons.1 h
    rw [List.map_cons, Entries.insert]
    by_cases hab : b = a
    · subst hab
      have hrest : l.map (fun c => (k c, if c = b then v else f c)) = l.map fun c => (k c, f c) := by
        apply List.map_congr_left
        intro c hc
        rw [if_neg]
        rintro rfl
        exact hb hc
      rw [if_pos rfl, if_pos List.mem_cons_self, List.map_cons, if_pos rfl, hrest]
    · have hname : Named.name (k b) ≠ Named.name (k a) := fun heq => hab (inj b a heq)
      rw [if_neg hname, ih hl]
      by_cases ha : a ∈ l
      · rw [if_pos ha, if_pos (List.mem_cons_of_mem b ha), List.map_cons, if_neg hab]
      · have hcons : a ∉ b :: l := by
          rw [List.mem_cons, not_or]
          exact ⟨Ne.symm hab, ha⟩
        rw [if_neg ha, if_neg hcons, List.cons_append, List.map_cons, if_neg hab]

/-- Among entries that are made slot by slot, a slot that is there has its value. -/
theorem find?_map {k : ι → κ} (inj : ∀ a b, Named.name (k a) = Named.name (k b) → a = b)
    (f : ι → α) (a : ι) (l : List ι) :
  Entries.find? (Named.name (k a)) (l.map fun b => (k b, f b)) = if a ∈ l then some (f a) else none
  := by
  induction l with
  | nil => rfl
  | cons b l ih =>
    rw [List.map_cons, find?_cons, ih]
    by_cases hab : b = a
    · subst hab
      rw [if_pos rfl, if_pos List.mem_cons_self]
    · have hname : Named.name (k b) ≠ Named.name (k a) := fun heq => hab (inj b a heq)
      rw [if_neg hname]
      simp only [List.mem_cons, Ne.symm hab, false_or]

/-- One more use of a slot files its value, where the values of the other slots stay. -/
theorem map_eraseDups_concat [BEq ι] [LawfulBEq ι] {k : ι → κ}
    (inj : ∀ a b, Named.name (k a) = Named.name (k b) → a = b) {f g : ι → α} {a : ι}
    (h : ∀ b, b ≠ a → g b = f b) (l : List ι) :
  (l ++ [a]).eraseDups.map (fun b => (k b, g b)) =
    Entries.insert (k a) (g a) (l.eraseDups.map fun b => (k b, f b))
  := by
  rw [insert_map inj f (g a) a (nodup_eraseDups l), eraseDups_concat]
  simp only [List.mem_eraseDups]
  apply List.map_congr_left
  intro b _
  by_cases hb : b = a
  · rw [if_pos hb, hb]
  · rw [if_neg hb, h b hb]

end Entries

namespace BoolQuery

/-- A part of a boolean query, with the fragment of a clause in place of its callback. -/
inductive Part where
  | clause (occurrence : Occurrence) (fragment : Value)
  | minimumShouldMatch (value : Value)

/-- Where a part is filed: with the clauses of its occurrence, or as the minimum. -/
def Part.slot : Part → Option Occurrence
  | .clause occurrence _ => some occurrence
  | .minimumShouldMatch _ => none

/-- The fragment of a clause of the given occurrence. -/
def Part.fragment? (occurrence : Occurrence) : Part → Option Value
  | .clause o fragment => if o = occurrence then some fragment else none
  | .minimumShouldMatch _ => none

/-- The value of a minimum. -/
def Part.minimum? : Part → Option Value
  | .clause _ _ => none
  | .minimumShouldMatch value => some value

/-- The key of a slot. -/
def slotKey : Option Occurrence → Key
  | some occurrence => .text occurrence.name
  | none => .text "minimum_should_match"

/-- What is filed in a slot: all clauses of an occurrence, or the last minimum. -/
def slotValue (parts : List Part) : Option Occurrence → Value
  | some occurrence => .list (parts.filterMap (Part.fragment? occurrence))
  | none => (parts.filterMap Part.minimum?).getLast?.getD .null

/-- The payload that some parts make: the slots that are used, in the order of their first use. -/
def payload (parts : List Part) : Dict :=
  (parts.map Part.slot).eraseDups.map fun slot => (slotKey slot, slotValue parts slot)

theorem slotKey_injective (a b : Option Occurrence)
    (h : Named.name (slotKey a) = Named.name (slotKey b)) :
  a = b
  := by
  have hnames : ∀ o : Occurrence, o.name ≠ "minimum_should_match" := by
    intro o
    cases o
    all_goals decide
  have hinj : ∀ o o' : Occurrence, o.name = o'.name → o = o' := by
    intro o o'
    cases o
    all_goals
      cases o'
      all_goals decide
  cases a with
  | none =>
    cases b with
    | none => rfl
    | some o => exact absurd (Name.text.inj h).symm (hnames o)
  | some o =>
    cases b with
    | none => exact absurd (Name.text.inj h) (hnames o)
    | some o' => rw [hinj o o' (Name.text.inj h)]

/-! ### One more part -/

theorem fragment?_eq_none {occurrence : Occurrence} {part : Part}
    (h : part.slot ≠ some occurrence) :
  part.fragment? occurrence = none
  := by
  cases part with
  | clause o fragment =>
    rw [Part.fragment?, if_neg]
    rintro rfl
    exact h rfl
  | minimumShouldMatch value => rfl

theorem minimum?_eq_none {part : Part} (h : part.slot ≠ none) :
  part.minimum? = none
  := by
  cases part with
  | clause o fragment => rfl
  | minimumShouldMatch value => exact absurd rfl h

theorem slotValue_concat_of_ne {part : Part} {slot : Option Occurrence} (h : slot ≠ part.slot)
    (parts : List Part) :
  slotValue (parts ++ [part]) slot = slotValue parts slot
  := by
  cases slot with
  | some occurrence =>
    have hpart := fragment?_eq_none (Ne.symm h)
    rw [slotValue, slotValue, List.filterMap_append, List.filterMap_cons_none hpart,
      List.filterMap_nil, List.append_nil]
  | none =>
    have hpart := minimum?_eq_none (Ne.symm h)
    rw [slotValue, slotValue, List.filterMap_append, List.filterMap_cons_none hpart,
      List.filterMap_nil, List.append_nil]

/-- One more part changes its own slot and nothing else. -/
theorem payload_concat (parts : List Part) (part : Part) :
  payload (parts ++ [part]) =
    (payload parts).insert (slotKey part.slot) (slotValue (parts ++ [part]) part.slot)
  := by
  rw [payload, payload, List.map_append, List.map_singleton]
  apply Entries.map_eraseDups_concat slotKey_injective
  intro slot h
  apply slotValue_concat_of_ne h

theorem find?_payload (parts : List Part) (slot : Option Occurrence) :
  (payload parts).find? (Named.name (slotKey slot)) =
    if slot ∈ parts.map Part.slot then some (slotValue parts slot) else none
  := by
  rw [payload, Entries.find?_map slotKey_injective]
  simp only [List.mem_eraseDups]

/-- What is in the slot of an occurrence, where it is used or not, are its clauses. -/
theorem items_of_slot (parts : List Part) (occurrence : Occurrence) :
  ((((payload parts).find? occurrence.name).getD .null).orElse (.list [])).items =
    .ok (parts.filterMap (Part.fragment? occurrence))
  := by
  have hfind := find?_payload parts (some occurrence)
  change (payload parts).find? occurrence.name = _ at hfind
  rw [hfind]
  split
  · rw [Option.getD_some, slotValue]
    cases parts.filterMap (Part.fragment? occurrence) with
    | nil => rfl
    | cons v vs => rfl
  · rename_i hslot
    have hnone : parts.filterMap (Part.fragment? occurrence) = [] := by
      rw [List.filterMap_eq_nil_iff]
      intro part hpart
      apply fragment?_eq_none
      intro heq
      apply hslot
      rw [← heq]
      apply List.mem_map_of_mem hpart
    rw [hnone]
    rfl

/-! ### Runs -/

/-- An empty payload that has just been made is the empty payload. -/
theorem ofState_dict (es : Dict) :
  ofState (.dict es) = ⟨.dict es⟩
  := congrArg BoolQuery.mk (Value.orEmpty_dict es)

/-- What a step comes to. -/
def Step.part : Step → Build Part
  | .clause occurrence inner => do return .clause occurrence (← inner.fragment .clauses)
  | .minimumShouldMatch value => pure (.minimumShouldMatch value)

theorem append_clause (parts : List Part) (occurrence : Occurrence) (fragment : Value) :
  State.append (.dict (payload parts)) (.str occurrence.name) fragment =
    pure (.dict (payload (parts ++ [.clause occurrence fragment])))
  := by
  have hvalue : slotValue (parts ++ [.clause occurrence fragment]) (some occurrence) =
      .list (parts.filterMap (Part.fragment? occurrence) ++ [fragment]) := by
    have hlast : Part.fragment? occurrence (.clause occurrence fragment) = some fragment := if_pos rfl
    rw [slotValue, List.filterMap_append, List.filterMap_cons_some hlast, List.filterMap_nil]
  rw [payload_concat, Part.slot, hvalue]
  simp only [State.append, Value.get_dict, Value.mapping_dict, Value.key_str, Build.liftM_ok,
    pure_bind, items_of_slot]
  rfl

/-- A step adds its part. -/
theorem apply_eq (parts : List Part) (step : Step) :
  (⟨.dict (payload parts)⟩ : BoolQuery).apply step = do
    return ⟨.dict (payload (parts ++ [← step.part]))⟩
  := by
  cases step with
  | clause occurrence inner =>
    simp only [apply, Step.part, append_clause, bind_assoc, pure_bind]
  | minimumShouldMatch value =>
    have hvalue : slotValue (parts ++ [.minimumShouldMatch value]) none = value := by
      have hlast : Part.minimum? (.minimumShouldMatch value) = some value := rfl
      rw [slotValue, List.filterMap_append, List.filterMap_cons_some hlast, List.filterMap_nil,
        List.getLast?_append]
      rfl
    rw [Step.part, pure_bind, payload_concat, Part.slot, hvalue]
    rfl

/-- A run makes the payload of all its parts. -/
theorem run_eq (parts : List Part) (steps : List Step) :
  (⟨.dict (payload parts)⟩ : BoolQuery).run steps = do
    return ⟨.dict (payload (parts ++ (← steps.mapM Step.part)))⟩
  := by
  induction steps generalizing parts with
  | nil => simp [run]
  | cons step steps ih =>
    unfold run at ih ⊢
    rw [List.foldlM_cons, List.mapM_cons, apply_eq]
    simp only [bind_assoc, pure_bind, ih, List.append_assoc, List.singleton_append]

/-- Where nothing is changed in place, a run adds what each step comes to by itself. -/
theorem comesTo_run_iff {parts : List Part} {steps : List Step} {calls : Calls} {b : BoolQuery} :
  Build.ComesTo ((⟨.dict (payload parts)⟩ : BoolQuery).run steps) calls b ↔
    ∃ more, List.Forall₂ (fun step part => Build.ComesTo step.part calls part) steps more ∧
      b = ⟨.dict (payload (parts ++ more))⟩
  := by
  rw [run_eq]
  simp only [Build.comesTo_bind, Build.comesTo_pure, Build.comesTo_mapM, eq_comm]

end BoolQuery

/-! ### The boolean query at the root of a request -/

namespace Request

theorem getAt_cons {es : Dict} {name : String} {child : Value} (h : es.find? name = some child)
    (default : Value) (rest : List Value) (i : Identity) :
  State.getAt default (.str name :: rest) (.dict es i) = State.getAt default rest child
  := by
  have hkey : es.find? (Key.text name).name = some child := h
  simp only [State.getAt, Value.key_str, bind, Except.bind, hkey]

theorem getAt_missing {es : Dict} {name : String} (h : es.find? name = none) (default : Value)
    (rest : List Value) (i : Identity) :
  State.getAt default (.str name :: rest) (.dict es i) = .ok default
  := by
  have hkey : es.find? (Key.text name).name = none := h
  simp only [State.getAt, Value.key_str, bind, Except.bind, hkey]
  rfl

theorem getAt_bool (es : Dict) (i : Identity) (payload : Value) :
  State.getAt .null [.str "query", .str "bool"]
      (.dict (es.insert (.text "query") (Fragment.bool payload)) i) =
    .ok payload
  := by
  rw [getAt_cons (Entries.find?_insert_text "query" _ es)]
  rfl

theorem apply_bool_eq (es : Dict) (i : Identity) (withQuery : Bool) (parts : List BoolQuery.Part)
    (step : BoolQuery.Step) :
  (⟨.dict (es.insert (.text "query") (Fragment.bool (.dict (BoolQuery.payload parts)))) i,
      withQuery⟩ : Request).apply (.bool step) = do
    return ⟨.dict (es.insert (.text "query")
      (Fragment.bool (.dict (BoolQuery.payload (parts ++ [← step.part]))))), withQuery⟩
  := by
  have hroot : rootBool ⟨.dict (es.insert (.text "query")
      (Fragment.bool (.dict (BoolQuery.payload parts)))) i, withQuery⟩ =
      .ok ⟨.dict (BoolQuery.payload parts)⟩ := by
    rw [rootBool, getAt_bool]
    exact congrArg Except.ok (BoolQuery.ofState_dict _)
  rw [apply, hroot, Build.liftM_ok, pure_bind, BoolQuery.apply_eq]
  simp only [bind_assoc, pure_bind]
  congr 1
  funext part
  rw [put, State.set_dict, Entries.insert_insert_self]
  rfl

/-- Once the root query is a boolean one, steps continue it. -/
theorem run_bool_eq (es : Dict) (withQuery : Bool) (parts : List BoolQuery.Part)
    (steps : List BoolQuery.Step) :
  (⟨.dict (es.insert (.text "query") (Fragment.bool (.dict (BoolQuery.payload parts)))),
      withQuery⟩ : Request).run (steps.map .bool) = do
    return ⟨.dict (es.insert (.text "query") (Fragment.bool (.dict
      (BoolQuery.payload (parts ++ (← steps.mapM BoolQuery.Step.part)))))), withQuery⟩
  := by
  induction steps generalizing parts with
  | nil => simp [run]
  | cons step steps ih =>
    unfold run at ih ⊢
    rw [List.map_cons, List.foldlM_cons, List.mapM_cons, apply_bool_eq]
    simp only [bind_assoc, pure_bind, ih, List.append_assoc, List.singleton_append]

end Request

end SearchDsl
