import SearchDsl.Proofs.Request.Root
import SearchDsl.Proofs.State

/-!
# Requests of the same contents

A step takes a list or a dictionary for what it holds, whichever one it is.  So requests of the same
contents have the same warnings, changes in place and faults at a step, and are followed by requests
of the same contents (`Request.matches_apply`).  The root query matters to the steps of a boolean
query, which ask a dictionary for its entries; it has to be one (`Request.Rooted`), and stays one.
-/

namespace SearchDsl

namespace Value

/-! ### Views of contents -/

theorem truthy_contents (v : Value) :
  v.contents.truthy = v.truthy
  := by
  match v with
  | .list items i => rw [contents_list, truthy, truthy, List.isEmpty_map]
  | .tuple items => rw [contents_tuple, truthy, truthy, List.isEmpty_map]
  | .dict es i => rw [contents_dict, truthy, truthy, List.isEmpty_map]
  | .held v => rw [contents_held, truthy, truthy, truthy_contents v]
  | .null | .bool _ | .int _ | .float _ | .str _ | .decimal _ | .date _ | .dateTime _ | .uuid _
  | .bytes _ | .foreign _ _ _ | .function _ _ _ _ | .query _ _ | .scoreFunction _ _ | .search _ _
  | .encoding _ _ | .action _ | .operation _ _ _ | .clauses | .request _ _ _ | .boolQuery _ _
  | .aggregations _ _ _ | .suggestions _ _ | .indexConfig _ _ | .bulk _ _ _
  | .multiSearch _ _ _ => rfl

theorem orElse_contents (v other : Value) :
  (v.orElse other).contents = v.contents.orElse other.contents
  := by
  rw [orElse, orElse, truthy_contents]
  split
  all_goals rfl

theorem contents_handedOut (v : Value) :
  v.handedOut.contents = v.contents.handedOut
  := by
  cases v
  all_goals rfl

theorem contents_toValue (key : Key) :
  key.toValue.contents = (key.mapObject contents).toValue
  := by
  cases key
  all_goals rfl

theorem keysOf_contents (es : Dict) :
  keysOf (es.map fun e => (e.1.mapObject contents, e.2.contents)) = (keysOf es).map contents
  := by
  rw [keysOf, keysOf, List.map_map, List.map_map]
  apply List.map_congr_left
  intro e _
  apply (contents_toValue e.1).symm

theorem characters_contents (s : String) :
  (characters s).map contents = characters s
  := by
  rw [characters, List.map_map]
  rfl

/-- The items of the contents are the contents of the items. -/
theorem items_contents (v : Value) :
  v.contents.items = v.items.map (List.map contents)
  := by
  cases v with
  | list items i =>
    rw [contents_list]
    rfl
  | tuple items =>
    rw [contents_tuple]
    rfl
  | dict es i =>
    rw [contents_dict]
    exact congrArg Except.ok (keysOf_contents es)
  | str s => exact congrArg Except.ok (characters_contents s).symm
  | action a => exact congrArg Except.ok (characters_contents a.word).symm
  | bytes octets =>
    apply congrArg Except.ok
    rw [List.map_map]
    rfl
  | held v =>
    cases v with
    | list items i =>
      rw [contents_held, contents_list]
      apply congrArg Except.ok
      rw [List.map_map, List.map_map]
      apply List.map_congr_left
      intro v _
      apply (contents_handedOut v).symm
    | dict es i =>
      rw [contents_held, contents_dict]
      exact congrArg Except.ok (keysOf_contents es)
    | _ => rfl
  | _ => rfl

end Value

/-! ### Boolean queries -/

/-- What is filed under a text in contents are the contents of what is filed under it. -/
theorem Entries.find?_of_contents {es ds : Dict} {i j : Identity}
    (h : (Value.dict es i).contents = (Value.dict ds j).contents) (s : String) :
  (es.find? s).map Value.contents = (ds.find? s).map Value.contents
  := by
  rw [Value.contents_dict, Value.contents_dict] at h
  rw [← find?_mapObject, ← find?_mapObject, (Value.dict.inj h).1]

/-- Entries of the same contents have the same contents after values of the same contents are filed
under a text. -/
theorem Entries.insert_of_contents {es ds : Dict} {i j : Identity}
    (h : (Value.dict es i).contents = (Value.dict ds j).contents) (s : String) {v w : Value}
    (hvw : v.contents = w.contents) :
  (Value.dict (es.insert (.text s) v)).contents = (Value.dict (ds.insert (.text s) w)).contents
  := by
  rw [Value.contents_dict, Value.contents_dict] at h ⊢
  rw [insert_mapObject, insert_mapObject, (Value.dict.inj h).1, hvw]

/-- What is added to under a name has items of the same contents. -/
theorem Value.items_of_contents {old old' : Option Value}
    (h : old.map contents = old'.map contents) :
  ((old.getD .null).orElse (.list [])).items.map (List.map contents) =
    ((old'.getD .null).orElse (.list [])).items.map (List.map contents)
  := by
  have hnull : ∀ o : Option Value, (o.getD .null).contents = (o.map contents).getD .null := by
    intro o
    cases o
    all_goals rfl
  rw [← items_contents, ← items_contents, orElse_contents, orElse_contents, hnull, hnull, h]

namespace BoolQuery

/-- Boolean queries of the same contents go on to boolean queries of the same contents. -/
theorem matches_apply {es ds : Dict} {i j : Identity}
    (h : (Value.dict es i).contents = (Value.dict ds j).contents) (step : Step) :
  Build.Matches (fun b c => b.state.contents = c.state.contents)
    ((⟨.dict es i⟩ : BoolQuery).apply step) ((⟨.dict ds j⟩ : BoolQuery).apply step)
  := by
  cases step with
  | clause occurrence inner =>
    rw [apply, apply]
    apply Build.Matches.bind_same
    intro clause
    have hitems := Value.items_of_contents (Entries.find?_of_contents h occurrence.name)
    simp only [State.append, Value.get_dict, Value.mapping_dict, Value.key_str, Build.liftM_ok,
      pure_bind, bind_assoc]
    apply (Build.Matches.of_map_eq hitems).bind
    intro items items' hsame
    apply Build.Matches.pure
    apply Entries.insert_of_contents h
    rw [Value.contents_list, Value.contents_list, List.map_append, List.map_append, hsame]
  | minimumShouldMatch value =>
    apply Build.Matches.pure
    apply Entries.insert_of_contents h _ rfl

theorem yields_isDict {es : Dict} {i : Identity} (step : Step) :
  Build.Yields (fun b : BoolQuery => b.state.IsDict) ((⟨.dict es i⟩ : BoolQuery).apply step)
  := by
  cases step with
  | clause occurrence inner =>
    rw [apply]
    apply Build.Yields.bind
    intro clause
    refine (State.yields_append (.dict es i) (.str occurrence.name) clause).andThen ?_
    rintro _ ⟨ds, rfl⟩
    apply Build.Yields.pure
    exact ⟨ds, .new, rfl⟩
  | minimumShouldMatch value =>
    apply Build.Yields.pure
    exact ⟨_, _, rfl⟩

end BoolQuery

namespace Request

/-! ### The root query -/

/-- The boolean steps find a dictionary at the root query `old`, or none and start from an empty
one. -/
def Continues (old : Option Value) : Prop := (BoolQuery.ofState (rootPayload old)).state.IsDict

theorem continues_none : Continues none := Value.isDict_empty

theorem contents_rootPayload {old old' : Option Value}
    (h : old.map Value.contents = old'.map Value.contents) :
  (BoolQuery.ofState (rootPayload old)).state.contents =
    (BoolQuery.ofState (rootPayload old')).state.contents
  := by
  have hpayload : ∀ o : Option Value,
      (rootPayload o).contents = rootPayload (o.map Value.contents) := by
    intro o
    cases o with
    | none => rfl
    | some v =>
      cases v with
      | dict es i =>
        rw [Option.map_some, Value.contents_dict, rootPayload, rootPayload,
          Entries.find?_mapObject]
        cases Entries.find? "bool" es
        all_goals rfl
      | _ => rfl
  rw [BoolQuery.ofState, BoolQuery.ofState, Value.orEmpty, Value.orEmpty, Value.orElse_contents,
    Value.orElse_contents, hpayload, hpayload, h]

/-- A boolean query with a dictionary for its state can be continued. -/
theorem continues_bool {state : Value} (h : state.IsDict) :
  Continues (some (Fragment.bool state))
  := by
  change state.orEmpty.IsDict
  rw [Value.orEmpty, Value.orElse]
  split
  · apply h
  · apply Value.isDict_empty

/-- A boolean step makes of a root query that can be continued one that can. -/
theorem yields_continues_bool {old : Option Value} (h : Continues old) (step : BoolQuery.Step) :
  Build.Yields (fun v => Continues (some v)) ((Step.bool step).value old)
  := by
  obtain ⟨es, i, hstate⟩ := h
  have hroot : BoolQuery.ofState (rootPayload old) = ⟨.dict es i⟩ := congrArg BoolQuery.mk hstate
  rw [Step.value, hroot]
  exact (BoolQuery.yields_isDict step).andThen fun b hb => Build.Yields.pure (continues_bool hb)

/-- Whatever a step puts at the root can be continued. -/
theorem Step.yields_continues {old : Option Value} (h : Continues old) {step : Step}
    (htarget : step.target = "query") :
  Build.Yields (fun v => Continues (some v)) (step.value old)
  := by
  cases hbool : step.bool? with
  | none =>
    cases hreplacement : step.replacement? with
    | none => exact absurd htarget (target_ne_query hreplacement hbool)
    | some fragment =>
      rw [(replaces hreplacement).2]
      intro calls v hv
      rw [Continues, yields_replacement hreplacement calls v hv]
      apply Value.isDict_empty
  | some bool =>
    cases step with
    | bool step => apply yields_continues_bool h
    | _ => cases hbool

/-! ### Steps -/

/-- Of values of the same contents a step makes values of the same contents. -/
theorem Step.matches_value {old old' : Option Value}
    (h : old.map Value.contents = old'.map Value.contents) (step : Step)
    (hroot : step.target = "query" → Continues old') :
  Build.Matches (fun v w => v.contents = w.contents) (step.value old) (step.value old')
  := by
  have hsame : ∀ x : Build Value, Build.Matches (fun v w => v.contents = w.contents) x x :=
    fun x => (Build.Matches.refl x).mono fun _ _ => congrArg Value.contents
  cases step with
  | bool step =>
    have hcontents := contents_rootPayload h
    obtain ⟨ds, j, hds⟩ := hroot rfl
    obtain ⟨es, i, hes⟩ := Value.IsDict.of_contents ⟨ds, j, hds⟩ hcontents
    have holds : BoolQuery.ofState (rootPayload old) = ⟨.dict es i⟩ := congrArg BoolQuery.mk hes
    have hnews : BoolQuery.ofState (rootPayload old') = ⟨.dict ds j⟩ := congrArg BoolQuery.mk hds
    rw [hes, hds] at hcontents
    rw [value, value, holds, hnews]
    apply (BoolQuery.matches_apply hcontents step).bind
    intro b c hbc
    apply Build.Matches.pure
    rw [BoolQuery.fragment, BoolQuery.fragment, Fragment.bool, Fragment.bool, Value.single,
      Value.single, Value.contents_dict, Value.contents_dict, List.map_singleton,
      List.map_singleton, hbc]
  | sort field direction =>
    have hitems := Value.items_of_contents h
    rw [value, value]
    apply Build.Matches.bind_same
    intro key
    apply (Build.Matches.of_map_eq hitems).bind
    intro items items' hsame
    apply Build.Matches.pure
    rw [Value.contents_list, Value.contents_list, List.map_append, List.map_append, hsame]
  | _ => apply hsame

/-- Requests of the same contents, with a root query that can be continued. -/
structure Alike (r q : Request) : Prop where
  withQuery : r.withQuery = q.withQuery
  contents : r.state.contents = q.state.contents
  continues : ∃ (es : Dict) (i : Identity), q.state = .dict es i ∧ Continues (es.find? "query")

/-- Requests of the same contents go on to requests of the same contents. -/
theorem Alike.apply {r q : Request} (h : r.Alike q) (step : Step) :
  Build.Matches Alike (r.apply step) (q.apply step)
  := by
  obtain ⟨state, withQuery⟩ := r
  obtain ⟨state', withQuery'⟩ := q
  obtain ⟨rfl, hcontents, ds, j, hds, hroot⟩ := h
  obtain rfl : state' = .dict ds j := hds
  obtain ⟨es, i, rfl⟩ : state.IsDict := Value.IsDict.of_contents ⟨ds, j, rfl⟩ hcontents
  have hvalues := Step.matches_value (Entries.find?_of_contents hcontents step.target) step
    fun htarget => htarget ▸ hroot
  have hyields : Build.Yields (fun w => step.target = "query" → Continues (some w))
      (step.value (Entries.find? step.target ds)) := by
    intro calls w hw htarget
    rw [htarget] at hw
    apply Step.yields_continues hroot htarget calls w hw
  rw [apply_eq, apply_eq]
  apply (hvalues.and_yields hyields).bind
  rintro v w ⟨hvw, hw⟩
  apply Build.Matches.pure
  constructor
  · rfl
  · exact Entries.insert_of_contents hcontents _ hvw
  · use Entries.insert (.text step.target) w ds, .new, rfl
    by_cases htarget : step.target = "query"
    · rw [htarget, Entries.find?_insert_text]
      apply hw htarget
    · rw [Entries.find?_insert_text_of_ne (Ne.symm htarget)]
      apply hroot

/-- Requests of the same contents build documents of the same contents. -/
theorem Alike.build {r q : Request} (h : r.Alike q) :
  ∃ v w, r.build = .ok v ∧ q.build = .ok w ∧ v.contents = w.contents
  := by
  obtain ⟨state, withQuery⟩ := r
  obtain ⟨state', withQuery'⟩ := q
  obtain ⟨rfl, hcontents, ds, j, hds, -⟩ := h
  obtain rfl : state' = .dict ds j := hds
  obtain ⟨es, i, rfl⟩ : state.IsDict := Value.IsDict.of_contents ⟨ds, j, rfl⟩ hcontents
  cases withQuery with
  | true =>
    use (Value.dict es i).copy, (Value.dict ds j).copy, rfl, rfl
    rw [Value.contents_copy, Value.contents_copy]
    apply hcontents
  | false =>
    use (Value.dict (Entries.erase [.text "query"] es)).copy,
      (Value.dict (Entries.erase [.text "query"] ds)).copy, rfl, rfl
    dsimp only at hcontents
    rw [Value.contents_dict, Value.contents_dict] at hcontents
    rw [Value.contents_copy, Value.contents_copy, Value.contents_dict, Value.contents_dict,
      ← Entries.erase_mapObject, ← Entries.erase_mapObject, (Value.dict.inj hcontents).1]

end Request

end SearchDsl
