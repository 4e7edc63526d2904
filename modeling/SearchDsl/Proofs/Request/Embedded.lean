import SearchDsl.Proofs.Embedding
import SearchDsl.Proofs.Request.WithoutQuery

/-!
# Requests as clauses

A request that comes from a callback stands for its root query.  That is the query of the document
that the request builds, or would build if it were made with its query, and every composition has
exactly this query in its position, or null where the document has none (`Request.embedded_query`).

Two things come before the query of the document: a request that is made without its query keeps
it as a fragment, and the options of a composition may name the position of its clause
(`Request.not_embedded_query`).
-/

namespace SearchDsl

namespace Request

/-! ### Positions -/

/-- Every composition whose callback returns `v` has `q` in its position: a boolean query after its
other clauses, and a clause with options wherever these do not name the position. -/
structure Embeds (v q : Value) : Prop where
  clause : ∀ parts occurrence,
    (⟨.dict (BoolQuery.payload parts)⟩ : BoolQuery).apply (.clause occurrence fun _ => pure v) =
      pure ⟨.dict (BoolQuery.payload (parts ++ [.clause occurrence q]))⟩
  rootClause : ∀ (es : Dict) i withQuery parts occurrence,
    BoolQuery.ofState (rootPayload (es.find? "query")) = ⟨.dict (BoolQuery.payload parts)⟩ →
    (⟨.dict es i, withQuery⟩ : Request).apply (.bool (.clause occurrence fun _ => pure v)) =
      pure ⟨.dict (es.insert (.text "query") (Fragment.bool
        (.dict (BoolQuery.payload (parts ++ [.clause occurrence q]))))), withQuery⟩
  compound : Clause.compound (fun _ => pure v) = pure q
  nested : ∀ path options os, options.orEmpty.mapping = .ok os → .text "query" ∉ os.names →
    ∃ es : Dict, (Clause.nested path (fun _ => pure v) options).fragment =
      pure (.single "nested" (.dict es)) ∧ es.find? "query" = some q
  constantScore : ∀ options os, options.orEmpty.mapping = .ok os → .text "filter" ∉ os.names →
    ∃ es : Dict, (Clause.constantScore (fun _ => pure v) options).fragment =
      pure (.single "constant_score" (.dict es)) ∧ es.find? "filter" = some q
  scriptScore : ∀ script options,
    Build.Yields
      (fun w => ∃ es : Dict, w = .single "script_score" (.dict es) ∧ es.find? "query" = some q)
      (Clause.scriptScore (fun _ => pure v) script options).fragment

/-- A clause with options has the fragment of its callback under a name that these do not name. -/
theorem fragment_withOptions {inner : Callback} {q options : Value} {os : Dict} {name : String}
    (h : inner.fragment .clauses = pure q) (hos : options.orEmpty.mapping = .ok os)
    (hname : .text name ∉ os.names) (kind : Key) {start : Value → Dict}
    (hstart : (start q).find? name = some q) :
  ∃ es : Dict, (do
      let clause ← inner.fragment .clauses
      return .single kind (← Value.withOptions (start clause) options) : Build Value) =
    pure (.single kind (.dict es)) ∧ es.find? name = some q
  := by
  use (start q).merge os
  constructor
  · rw [h, pure_bind, Value.withOptions_of_mapping hos, Build.liftM_ok, pure_bind]
  · rw [Entries.find?_merge_of_notMem hname, hstart]

theorem embeds_of_absorb {v q : Value} (h : Fragment.absorb v = pure q) :
  Embeds v q
  := by
  have hfragment : ∀ argument, Callback.fragment (fun _ => pure v) argument = pure q := by
    intro argument
    rw [Callback.fragment, pure_bind, h]
  have hpart : ∀ occurrence, (BoolQuery.Step.clause occurrence fun _ => pure v).part =
      pure (.clause occurrence q) := by
    intro occurrence
    rw [BoolQuery.Step.part, hfragment, pure_bind]
  constructor
  case clause =>
    intro parts occurrence
    rw [BoolQuery.apply_eq, hpart, pure_bind]
  case rootClause =>
    intro es i withQuery parts occurrence hroot
    rw [apply_bool_of_root hroot, hpart, pure_bind]
  case compound => apply hfragment
  case nested =>
    intro path options os hos hquery
    exact fragment_withOptions (hfragment _) hos hquery "nested" rfl
  case constantScore =>
    intro options os hos hfilter
    exact fragment_withOptions (hfragment _) hos hfilter "constant_score" rfl
  case scriptScore =>
    intro script options
    rw [Clause.fragment, hfragment, pure_bind]
    apply Build.Yields.bind
    intro body
    apply Build.Yields.bind
    intro minScore
    apply Build.Yields.bind
    intro boost
    apply Build.Yields.pure
    use (.text "query", q) :: (.text "script", body) :: (minScore ++ boost)
    exact ⟨rfl, rfl⟩

/-! ### The query of a chain -/

/-- A chain makes a request of texts, and makes the same one when it starts with the query. -/
theorem state_of_chain {links : List Link} {withQuery : Bool} {calls : Calls} {r : Request}
    (h : (chain links (toValue ⟨.empty, withQuery⟩) calls).result = .ok r.toValue) :
  ∃ es : Dict, r = ⟨.dict es, withQuery⟩ ∧ es.Texts ∧
    (chain links new.toValue calls).result = .ok (toValue ⟨.dict es, true⟩)
  := by
  have hnew : Hides (toValue ⟨.empty, false⟩) new.toValue := .request Entries.texts_nil
  obtain ⟨-, -, ⟨fault, hfalse, htrue⟩ | ⟨v, w, hfalse, htrue, hvw⟩⟩ :=
    matches_chain links hnew calls
  · cases withQuery with
    | false =>
      rw [hfalse] at h
      cases h
    | true =>
      have h' := htrue.symm.trans h
      cases h'
  · obtain ⟨state, flag⟩ := r
    cases withQuery with
    | false =>
      obtain rfl : v = toValue ⟨state, flag⟩ := Except.ok.inj (hfalse.symm.trans h)
      cases hvw with
      | @request es texts => exact ⟨es, rfl, texts, htrue⟩
    | true =>
      obtain rfl : w = toValue ⟨state, flag⟩ := Except.ok.inj (htrue.symm.trans h)
      cases hvw with
      | @request es texts => exact ⟨es, rfl, texts, htrue⟩

/-- A request that a chain of operations makes is absorbed as the query of the document that the
chain makes of the empty request with its query, or as null where there is none.  The request builds
this document, or the document without its query where it was made so.  Every composition has what
is absorbed in its position. -/
theorem embedded_query {links : List Link} {withQuery : Bool} {calls : Calls} {r : Request}
    (h : (chain links (toValue ⟨.empty, withQuery⟩) calls).result = .ok r.toValue) :
  ∃ (q : Value) (t : Request) (es : Dict), Fragment.absorb r.toValue = pure q ∧
    (chain links new.toValue calls).result = .ok (toValue t) ∧ t.build = .ok (.dict es) ∧
    r.build = .ok (.dict (if withQuery then es else es.erase [.text "query"])) ∧
    q.contents = (Entries.get es "query").contents ∧ (es.find? "query" = none → q = .null) ∧
    Embeds r.toValue q
  := by
  obtain ⟨state, rfl, texts, hnew⟩ := state_of_chain h
  have habsorb : Fragment.absorb (toValue ⟨.dict state, withQuery⟩) =
      pure ((state.find? "query").getD .null) := Fragment.absorb_request state .new .new withQuery
  use (state.find? "query").getD .null, ⟨.dict state, true⟩, Entries.mapValues Value.copy state
  use habsorb, hnew, build_dict texts
  constructor
  · cases withQuery with
    | true => apply build_dict texts
    | false => apply build_dict_without texts
  rw [Entries.get, Entries.find?_mapValues]
  cases hquery : state.find? "query" with
  | none =>
    rw [hquery] at habsorb
    use rfl, fun _ => rfl
    apply embeds_of_absorb habsorb
  | some query =>
    rw [hquery] at habsorb
    constructor
    · apply (Value.contents_copy query).symm
    constructor
    · intro hnone
      cases hnone
    apply embeds_of_absorb habsorb

/-- A request without its query that has one beside a size. -/
theorem embedded_query_of_hidden_term :
  let r : Request := ⟨.dict [("query", .single "term" (.single "x" (.int 1))), ("size", .int 5)],
    false⟩
  ∃ (q : Value) (es : Dict), Fragment.absorb r.toValue = pure q ∧
    r.build = .ok (.dict (es.erase [.text "query"])) ∧
    q.contents = (Entries.get es "query").contents
  := by
  intro r
  let links : List Link := [.step (.query (.leaf (.term (.str "x") (.int 1)))),
    .step (.set .size (.int 5))]
  let calls : Calls := fun _ _ _ => .of (.ok .null)
  have hchain : (chain links (toValue ⟨.empty, false⟩) calls).result = .ok r.toValue := rfl
  obtain ⟨q, t, es, habsorb, -, -, hbuild, hquery, -⟩ := embedded_query hchain
  exact ⟨q, es, habsorb, hbuild, hquery⟩

/-- What is absorbed need not be the query of the document, and need not be in the position of the
clause: a request may be made without its query, and options may name the position. -/
theorem not_embedded_query :
  (¬∀ links withQuery calls (r : Request),
    (chain links (toValue ⟨.empty, withQuery⟩) calls).result = .ok r.toValue →
    ∃ (q : Value) (es : Dict), Fragment.absorb r.toValue = pure q ∧ r.build = .ok (.dict es) ∧
      q.contents = (Entries.get es "query").contents) ∧
  ¬∀ links calls (r : Request) path options (q : Value),
    (chain links new.toValue calls).result = .ok r.toValue → Fragment.absorb r.toValue = pure q →
    ∃ es : Dict, (Clause.nested path (fun _ => pure r.toValue) options).fragment =
      pure (.single "nested" (.dict es)) ∧ es.find? "query" = some q
  := by
  let links : List Link := [.step (.query (.leaf .matchAll))]
  let calls : Calls := fun _ _ _ => .of (.ok .null)
  constructor
  · intro h
    let r : Request := ⟨.dict [("query", .single "match_all" .empty)], false⟩
    obtain ⟨q, es, habsorb, hbuild, hquery⟩ := h links false calls r rfl
    have hclause : Fragment.absorb r.toValue = pure (.single "match_all" .empty) := rfl
    have hempty : r.build = .ok (.dict []) := rfl
    obtain rfl : .single "match_all" .empty = q := Build.pure_injective (hclause.symm.trans habsorb)
    rw [hempty] at hbuild
    cases hbuild
    cases hquery
  · intro h
    let r : Request := ⟨.dict [("query", .single "match_all" .empty)], true⟩
    obtain ⟨es, hfragment, hquery⟩ := h links calls r (.str "p") (.single "query" (.int 1))
      (.single "match_all" .empty) rfl rfl
    have hoptions : (Clause.nested (.str "p") (fun _ => pure r.toValue)
        (.single "query" (.int 1))).fragment =
        pure (.single "nested" (.dict [("path", .str "p"), ("query", .int 1)])) := rfl
    rw [hoptions] at hfragment
    have hes := Build.pure_injective hfragment
    injection hes with hes
    injection hes with hes
    cases hes
    cases hquery

end Request

end SearchDsl
