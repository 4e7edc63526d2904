import SearchDsl.Proofs.Request.Targets

/-!
# Requests without their query

A request that is made without its query does whatever the request with its query does: each
operation on it has the same warnings, changes in place and faults, and what it builds lacks the
query and nothing else (`Request.chain_without_query`).  This is so for chains of operations in
which conditions choose between chains, and which may end with no request at all where a condition
has no alternative.
-/

namespace SearchDsl

namespace Request

/-! ### Chains -/

/-- An operation of a chain. -/
inductive Link where
  | step (s : Step)
  /-- Goes on with one of two chains, or with null where the condition is false and there is no
  second one. -/
  | choose (condition : Value) (positive : List Link) (negative : Option (List Link))

mutual

/-- What an operation makes of a request; null has no operations. -/
def Link.apply : Link → Callback
  | .step s, .request state withQuery _ => do
    return (← (⟨state, withQuery⟩ : Request).apply s).toValue
  | .choose condition positive negative, .request state withQuery _ =>
    Callback.choose condition (chain positive) (alternative negative)
      (ofState state withQuery).toValue
  | _, _ => .fail .noSuchMember

/-- What a chain of operations makes of a request. -/
def chain : List Link → Callback
  | [], v => pure v
  | l :: ls, v => do chain ls (← l.apply v)

/-- The callback of the second chain, where there is one. -/
def alternative : Option (List Link) → Option Callback
  | none => none
  | some ls => some (chain ls)

end

/-! ### The two runs of a chain -/

/-- Both are null, or requests with the same state, of which the second one alone builds its
query. -/
inductive Hides : Value → Value → Prop
  | null : Hides .null .null
  | request {es : Dict} (texts : es.Texts) :
      Hides (toValue ⟨.dict es, false⟩) (toValue ⟨.dict es, true⟩)

theorem ofState_dict (es : Dict) (withQuery : Bool) :
  ofState (.dict es) withQuery = ⟨.dict es, withQuery⟩
  := congrArg (Request.mk · withQuery) (Value.orEmpty_dict es)

theorem matches_step {es : Dict} (h : es.Texts) (s : Step) :
  Build.Matches Hides (Link.apply (.step s) (toValue ⟨.dict es, false⟩))
    (Link.apply (.step s) (toValue ⟨.dict es, true⟩))
  := by
  simp only [toValue, Link.apply, apply_eq, bind_assoc, pure_bind]
  apply Build.Matches.bind_same
  intro v
  apply Build.Matches.pure
  apply Hides.request (h.insert s.target v)

theorem Link.apply_null (l : Link) :
  l.apply .null = .fail .noSuchMember
  := by
  cases l
  all_goals
    rw [apply]
    all_goals simp

mutual

/-- An operation makes of two such requests two such results. -/
theorem matches_link (l : Link) {v w : Value} (h : Hides v w) :
  Build.Matches Hides (l.apply v) (l.apply w)
  := by
  cases h with
  | null =>
    rw [Link.apply_null]
    apply Build.Matches.fail
  | @request es texts =>
    match l with
    | .step s => apply matches_step texts
    | .choose condition positive negative =>
      have hpositive := matches_chain positive (.request texts)
      simp only [toValue, Link.apply, ofState_dict, Callback.choose] at hpositive ⊢
      split
      · apply hpositive
      · cases negative with
        | none =>
          rw [alternative]
          apply Build.Matches.pure .null
        | some ls =>
          rw [alternative]
          apply matches_chain ls (.request texts)

theorem matches_chain (ls : List Link) {v w : Value} (h : Hides v w) :
  Build.Matches Hides (chain ls v) (chain ls w)
  := by
  match ls with
  | [] =>
    rw [chain, chain]
    apply Build.Matches.pure h
  | l :: ls =>
    rw [chain, chain]
    apply (matches_link l h).bind
    intro v' w' h'
    apply matches_chain ls h'

end

/-! ### What the two runs build -/

theorem build_dict_without {es : Dict} (h : es.Texts) :
  build ⟨.dict es, false⟩ =
    .ok (.dict (Entries.erase [.text "query"] (Entries.mapValues Value.copy es)))
  := by
  rw [Entries.erase_mapValues, ← build_dict (h.erase _)]
  rfl

/-- Both are null, or requests of one fragment whose builds are the same but for the query, which
the first one leaves out. -/
def SameButQuery (v w : Value) : Prop :=
  v = .null ∧ w = .null ∨
    ∃ f t : Request, v = f.toValue ∧ w = t.toValue ∧ f.withQuery = false ∧ t.withQuery = true ∧
      f.fragment = t.fragment ∧
      ∃ es : Dict, t.build = .ok (.dict es) ∧ f.build = .ok (.dict (es.erase [.text "query"]))

theorem Hides.sameButQuery {v w : Value} (h : Hides v w) :
  SameButQuery v w
  := by
  cases h with
  | null =>
    left
    exact ⟨rfl, rfl⟩
  | @request es texts =>
    right
    use ⟨.dict es, false⟩, ⟨.dict es, true⟩, rfl, rfl, rfl, rfl, rfl
    use Entries.mapValues Value.copy es, build_dict texts
    apply build_dict_without texts

/-- A chain of operations on the empty request goes on alike whether or not the request builds its
query: the warnings, the changes in place and the fault are the same, and so is what it ends with,
but for the query in what is built. -/
theorem chain_without_query (links : List Link) :
  Build.Matches SameButQuery (chain links (toValue ⟨.empty, false⟩)) (chain links new.toValue)
  := by
  have hnew : Hides (toValue ⟨.empty, false⟩) new.toValue := .request Entries.texts_nil
  apply (matches_chain links hnew).mono
  intro v w h
  apply h.sameButQuery

end Request

end SearchDsl
