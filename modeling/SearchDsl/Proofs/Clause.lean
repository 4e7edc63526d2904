import SearchDsl.Clause
import SearchDsl.Proofs.Build

/-!
# Fragments of clauses

The fragment of a clause is a dictionary with one entry, which is filed under the kind of the
clause (`Clause.yields_fragment`).  No clause here is a boolean query, so that nothing in its
fragment is filed under the name of one.
-/

namespace SearchDsl

/-- The value is a dictionary. -/
def Value.IsDict (v : Value) : Prop := ∃ es i, v = .dict es i

/-- The value has the form of the fragment of a clause that is no boolean query. -/
def Value.IsClause (v : Value) : Prop :=
  ∃ (kind : String) (payload : Value), kind ≠ "bool" ∧ v = .single kind payload

theorem Value.isDict_single (kind : Key) (v : Value) :
  (Value.single kind v).IsDict
  := by
  use [(kind, v)], .new
  rfl

theorem Value.IsClause.isDict {v : Value} (h : v.IsClause) :
  v.IsDict
  := by
  obtain ⟨kind, payload, -, rfl⟩ := h
  apply isDict_single

namespace Clause

theorem yields_single {kind : String} (h : kind ≠ "bool") (payload : Value) :
  Build.Yields Value.IsClause (pure (.single kind payload))
  := by
  apply Build.Yields.pure
  use kind, payload

theorem yields_onField {kind : String} (h : kind ≠ "bool") (field value : Value) :
  Build.Yields Value.IsClause (liftM (onField kind field value))
  := by
  apply Build.Yields.lift
  intro v hv
  unfold onField at hv
  cases hkey : field.key with
  | error fault =>
    rw [hkey] at hv
    cases hv
  | ok key =>
    rw [hkey] at hv
    use kind, .single key value, h
    apply (Except.ok.inj hv).symm

theorem yields_leaf (l : Leaf) :
  Build.Yields Value.IsClause l.fragment
  := by
  cases l
  all_goals
    unfold Leaf.fragment
    repeat first
      | apply yields_onField (by decide)
      | apply yields_single (by decide)
      | apply Build.Yields.bind
        intro _

/-- The fragment of every clause has its form. -/
theorem yields_fragment (c : Clause) :
  Build.Yields Value.IsClause c.fragment
  := by
  cases c with
  | leaf l => apply yields_leaf
  | nested path inner options =>
    apply Build.Yields.bind
    intro query
    apply Build.Yields.bind
    intro payload
    apply yields_single (by decide)
  | constantScore inner options =>
    apply Build.Yields.bind
    intro filter
    apply Build.Yields.bind
    intro payload
    apply yields_single (by decide)
  | scriptScore inner script options =>
    apply Build.Yields.bind
    intro query
    apply Build.Yields.bind
    intro script
    apply Build.Yields.bind
    intro minScore
    apply Build.Yields.bind
    intro boost
    apply yields_single (by decide)

end Clause

end SearchDsl
