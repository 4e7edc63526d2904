import SearchDsl.Proofs.Aggregations.Last
import SearchDsl.Proofs.Aggregations.Program

/-!
# Levels of a program

Every program that a program nests is a level of its own, which starts with no aggregations,
whatever the levels around it have.  A level is reached when what is before it on the level around
it runs and adds something.  Where only dictionaries below which children can be filed are added,
a program fails exactly when some level that is reached nests before it adds
(`Aggregations.run_fails_iff`), since the well-formed programs are those without such a level
(`Aggregations.not_wellFormed_iff`).
-/

namespace SearchDsl

namespace Aggregations

/-- All that is added, on every level, is a dictionary below which children can be filed. -/
def AllAddable : List Instruction → Prop
  | [] => True
  | .add _ a :: p => Addable a ∧ AllAddable p
  | .sub inner _ :: p => AllAddable inner ∧ AllAddable p

/-- Something is nested before the first addition of the level. -/
def NestsFirst (p : List Instruction) : Prop :=
  ∃ before inner built after, p = before ++ .sub inner built :: after ∧ added before = []

/-- The second program is the first one, or a level of it whose callback is called: what is before
it runs and adds something. -/
inductive Reaches : List Instruction → List Instruction → Prop
  | self (p : List Instruction) : Reaches p p
  | nested {before inner l : List Instruction} {built : Bool} {after : List Instruction}
      (runs : (new.run (steps before)).Succeeds) (adds : added before ≠ [])
      (reached : Reaches inner l) : Reaches (before ++ .sub inner built :: after) l

/-! ### Well-formed programs -/

theorem continues_append {p q : List Instruction} :
  Continues (p ++ q) ↔ Continues p ∧ Continues q
  := by
  induction p with
  | nil => simp [Continues]
  | cons i p ih =>
    cases i with
    | add name a => simp only [List.cons_append, Continues, ih, and_assoc]
    | sub inner built => simp only [List.cons_append, Continues, ih, and_assoc]

theorem WellFormed.append {p q : List Instruction} (hp : WellFormed p) (hadded : added p ≠ [])
    (hq : Continues q) :
  WellFormed (p ++ q)
  := by
  cases p with
  | nil => exact absurd rfl hadded
  | cons i p =>
    cases i with
    | add name a =>
      rw [WellFormed] at hp
      rw [List.cons_append, WellFormed, continues_append]
      exact ⟨hp.1, hp.2, hq⟩
    | sub inner built =>
      rw [WellFormed] at hp
      cases hp

theorem added_append (p q : List Instruction) :
  added (p ++ q) = added p ++ added q
  := by
  induction p with
  | nil => rfl
  | cons i p ih =>
    cases i with
    | add name a => rw [List.cons_append, added, added, ih, List.cons_append]
    | sub inner built => rw [List.cons_append, added, added, ih]

/-! ### Levels that nest first -/

/-- What is nested in a well-formed program is well-formed and comes after an addition. -/
theorem WellFormed.of_sub {before inner after : List Instruction} {built : Bool}
    (h : WellFormed (before ++ .sub inner built :: after)) :
  WellFormed inner ∧ added before ≠ []
  := by
  match before with
  | [] =>
    rw [List.nil_append, WellFormed] at h
    cases h
  | .add name a :: before =>
    rw [List.cons_append, WellFormed, continues_append, Continues] at h
    constructor
    · apply h.2.2.1
    · rw [added]
      apply List.cons_ne_nil
  | .sub _ _ :: before =>
    rw [List.cons_append, WellFormed] at h
    cases h

theorem not_nestsFirst_of_reaches {p l : List Instruction} (h : Reaches p l)
    (hp : WellFormed p) :
  ¬NestsFirst l
  := by
  induction h with
  | self p =>
    rintro ⟨before, inner, built, after, rfl, hnone⟩
    apply hp.of_sub.2 hnone
  | nested _ _ _ ih => apply ih hp.of_sub.1

mutual

/-- Where a program may not go on like this, a level is reached that nests first. -/
theorem exists_level_after (before p : List Instruction) (hbefore : WellFormed before)
    (hadded : added before ≠ []) (hp : AllAddable p) (h : ¬Continues p) :
  ∃ l, Reaches (before ++ p) l ∧ NestsFirst l
  := by
  have hsome : ∀ q, added (before ++ q) ≠ [] := by
    intro q
    rw [added_append]
    apply List.append_ne_nil_of_left_ne_nil hadded
  match p with
  | [] =>
    rw [Continues] at h
    exact absurd trivial h
  | .add name a :: p =>
    rw [AllAddable] at hp
    rw [Continues, not_and] at h
    have hone : WellFormed (before ++ [.add name a]) := by
      apply hbefore.append hadded
      rw [Continues, Continues]
      exact ⟨hp.1, trivial⟩
    rw [List.append_cons]
    apply exists_level_after _ p hone (hsome _) hp.2 (h hp.1)
  | .sub inner built :: p =>
    rw [AllAddable] at hp
    rw [Continues, not_and] at h
    by_cases hinner : WellFormed inner
    · have hone : WellFormed (before ++ [.sub inner built]) := by
        apply hbefore.append hadded
        rw [Continues, Continues]
        exact ⟨hinner, trivial⟩
      rw [List.append_cons]
      apply exists_level_after _ p hone (hsome _) hp.2 (h hinner)
    · obtain ⟨l, hl, hfirst⟩ := exists_level inner hp.1 hinner
      obtain ⟨es, last, hrun, -⟩ := run_program before hbefore
      have hruns : (new.run (steps before)).Succeeds := by
        rw [hrun]
        apply Build.Succeeds.pure
      use l, .nested hruns hadded hl

/-- Where a program is not well-formed, a level is reached that nests first. -/
theorem exists_level (p : List Instruction) (hp : AllAddable p) (h : ¬WellFormed p) :
  ∃ l, Reaches p l ∧ NestsFirst l
  := by
  match p with
  | [] =>
    rw [WellFormed] at h
    exact absurd trivial h
  | .add name a :: p =>
    rw [AllAddable] at hp
    rw [WellFormed, not_and] at h
    have hone : WellFormed [.add name a] := by
      rw [WellFormed, Continues]
      exact ⟨hp.1, trivial⟩
    apply exists_level_after [.add name a] p hone (List.cons_ne_nil _ _) hp.2 (h hp.1)
  | .sub inner built :: p =>
    use .sub inner built :: p, .self _
    use [], inner, built, p
    exact ⟨rfl, rfl⟩

end

theorem not_wellFormed_iff {p : List Instruction} (hp : AllAddable p) :
  ¬WellFormed p ↔ ∃ l, Reaches p l ∧ NestsFirst l
  := by
  constructor
  · apply exists_level p hp
  · rintro ⟨l, hl, hfirst⟩ h
    apply not_nestsFirst_of_reaches hl h hfirst

/-! ### Programs that fail -/

theorem apply_nest_of_fail {name : String} {inner : Callback} {fault : Fault} (nodes : Value)
    (h : inner new.toValue = .fail fault) :
  apply ⟨nodes, .str name⟩ (.nest inner) = .fail fault
  := by
  have hlast : (Value.str name).isNull = false := rfl
  simp only [apply, hlast, Bool.false_eq_true, if_false, h]
  rfl

mutual

/-- A program that may not go on like this fails, whatever there is on its level. -/
theorem run_after_fails (p : List Instruction) (hp : AllAddable p) (h : ¬Continues p)
    (es node : Dict) (name : String) (i : Identity) (hnode : Nestable node) :
  (⟨.dict (es.insert name (.dict node i)), .str name⟩ : Aggregations).run (steps p) =
    .fail .nothingToNestUnder
  := by
  match p with
  | [] =>
    rw [Continues] at h
    exact absurd trivial h
  | .add other a :: p =>
    rw [AllAddable] at hp
    rw [Continues, not_and] at h
    obtain ⟨⟨j, ha⟩, hnestable⟩ := hp.1.nodeOf
    rw [steps, Instruction.step, run_cons, apply_add other ha, pure_bind]
    apply run_after_fails p hp.2 (h hp.1) (es.insert name (.dict node i)) _ _ _ hnestable
  | .sub inner built :: p =>
    rw [AllAddable] at hp
    rw [Continues, not_and] at h
    rw [steps, Instruction.step, run_cons]
    by_cases hinner : WellFormed inner
    · obtain ⟨fs, childLast, hchild, hchildAlike⟩ := run_program inner hinner
      obtain ⟨result, cs, k, hcallback, hentries, -⟩ :=
        callback_returns built hchild hchildAlike
      have hfind := Entries.find?_insert_text name (.dict node i) es
      rw [apply_nest hfind hnode hcallback hentries, pure_bind, Entries.insert_insert_self]
      apply run_after_fails p hp.2 (h hinner) _ _ _ _ (nestable_nested node cs)
    · have hcallback : callback (steps inner) built new.toValue = .fail .nothingToNestUnder := by
        change (new.run (steps inner) >>= _) = _
        rw [run_fails inner hp.1 hinner, Build.fail_bind]
      rw [apply_nest_of_fail _ hcallback, Build.fail_bind]

/-- A program that is not well-formed fails. -/
theorem run_fails (p : List Instruction) (hp : AllAddable p) (h : ¬WellFormed p) :
  new.run (steps p) = .fail .nothingToNestUnder
  := by
  match p with
  | [] =>
    rw [WellFormed] at h
    exact absurd trivial h
  | .add name a :: p =>
    rw [AllAddable] at hp
    rw [WellFormed, not_and] at h
    obtain ⟨⟨i, ha⟩, hnestable⟩ := hp.1.nodeOf
    rw [steps, Instruction.step, run_cons]
    change (apply ⟨.dict [], .null⟩ (.add (.str name) a) >>= _) = _
    rw [apply_add name ha, pure_bind]
    apply run_after_fails p hp.2 (h hp.1) [] _ _ _ hnestable
  | .sub inner built :: p =>
    rw [steps, Instruction.step, run_cons]
    rfl

end

/-! ### The name filed last -/

theorem adds_steps (p : List Instruction) :
  ∀ step ∈ steps p, step.Adds fun v => ∃ name, v = .str name
  := by
  induction p with
  | nil =>
    intro step hstep
    rw [steps] at hstep
    cases hstep
  | cons i p ih =>
    rw [steps, List.forall_mem_cons]
    constructor
    · cases i with
      | add name a =>
        rw [Instruction.step]
        use name
      | sub inner built =>
        rw [Instruction.step]
        trivial
    · apply ih

/-- A program fails exactly when a level is reached that nests before it adds, and then because
there is nothing to nest under, with no warning and no change in place.  Otherwise the name filed
last is null exactly when nothing is filed, and else is one of the names that are filed; where
nothing is filed no callback is called. -/
theorem run_fails_iff (p : List Instruction) (hp : AllAddable p) :
  (∀ calls, (∃ fault, (new.run (steps p) calls).result = .error fault) ↔
    ∃ l, Reaches p l ∧ NestsFirst l) ∧
  ((∃ l, Reaches p l ∧ NestsFirst l) → new.run (steps p) = .fail .nothingToNestUnder) ∧
  ∀ calls a, (new.run (steps p) calls).result = .ok a →
    a.nodes = .dict a.entries ∧ (a.last = .null ↔ a.entries = []) ∧
    (a.entries ≠ [] → ∃ name : String, a.last = .str name ∧ Name.text name ∈ a.entries.names) ∧
    (a.entries = [] → ∀ inner, a.apply (.nest inner) = .fail .nothingToNestUnder)
  := by
  have hfails : (∃ l, Reaches p l ∧ NestsFirst l) →
      new.run (steps p) = .fail .nothingToNestUnder := by
    intro h
    apply run_fails p hp ((not_wellFormed_iff hp).2 h)
  constructor
  · intro calls
    constructor
    · rintro ⟨fault, hfault⟩
      rw [← not_wellFormed_iff hp]
      intro hwell
      obtain ⟨es, last, hrun, -⟩ := run_program p hwell
      rw [hrun] at hfault
      cases hfault
    · intro h
      rw [hfails h]
      use .nothingToNestUnder
      rfl
  · use hfails
    intro calls a ha
    cases yields_tracked_run .none (adds_steps p) calls a ha with
    | none =>
      use rfl, iff_of_true rfl rfl
      constructor
      · intro hsome
        exact absurd rfl hsome
      · intro _ inner
        rfl
    | @some es last key distinct named hkey filed =>
      obtain ⟨name, rfl⟩ := named
      have hsome : es ≠ [] := by
        rintro rfl
        cases filed
      have hlast : Value.str name ≠ .null := by simp
      use rfl, iff_of_false hlast hsome
      constructor
      · intro _
        use name, rfl
        obtain rfl : Key.text name = key := Except.ok.inj hkey
        apply filed
      · intro hnone
        exact absurd hnone hsome

/-- A level without an addition, below an aggregation of the empty name. -/
theorem run_fails_below_empty_name :
  new.run (steps [.add "" (.topHits .null), .sub [.sub [.add "x" (.topHits .null)] false] false]) =
    .fail .nothingToNestUnder
  := by
  have hhits : Addable (.topHits .null) :=
    ⟨[("top_hits", .empty)], .new, rfl, nestable_of_absent rfl⟩
  have hadd : AllAddable [.add "" (.topHits .null),
      .sub [.sub [.add "x" (.topHits .null)] false] false] := by
    simp only [AllAddable, and_true]
    exact ⟨hhits, hhits⟩
  have hruns : (new.run (steps [.add "" (.topHits .null)])).Succeeds := by
    rw [steps, steps, Instruction.step]
    apply Build.Succeeds.pure
  apply (run_fails_iff _ hadd).2.1
  use [.sub [.add "x" (.topHits .null)] false]
  constructor
  · apply Reaches.nested hruns (List.cons_ne_nil _ _) (.self _)
  · use [], [.add "x" (.topHits .null)], false, [], rfl
    rfl

end Aggregations

end SearchDsl
