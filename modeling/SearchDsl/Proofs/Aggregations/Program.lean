import SearchDsl.Proofs.Aggregations.Step

/-!
# Programs of aggregations

A program adds aggregations and nests programs below them.  Its meaning is a tree that is
read off the program as a whole, with no last name and no paths: the program is cut into
segments, an addition with the programs that are nested after it, and a name has what its last
segment gives (`Aggregations.tree`).  Running the program builds that tree
(`Aggregations.run_builds_tree`).
-/

namespace SearchDsl

namespace Aggregations

/-- A part of a program. -/
inductive Instruction where
  /-- Adds an aggregation under a name. -/
  | add (name : String) (a : Aggregation)
  /-- Nests a program, whose callback returns the aggregations themselves or what they build. -/
  | sub (inner : List Instruction) (built : Bool)

/-! ### Running a program -/

/-- The callback that runs some steps on the aggregations that it is given. -/
def callback (steps : List Step) (built : Bool) : Callback
  | .aggregations nodes last _ => do
    let a ← run ⟨nodes, last⟩ steps
    return if built then a.build else a.toValue
  | v => pure v

mutual

/-- The step of an instruction. -/
def Instruction.step : Instruction → Step
  | .add name a => .add (.str name) a
  | .sub inner built => .nest (callback (steps inner) built)

/-- The steps of a program. -/
def steps : List Instruction → List Step
  | [] => []
  | i :: p => i.step :: steps p

end

/-! ### The meaning of a program -/

/-- The entries of the node that an aggregation adds. -/
def nodeOf (a : Aggregation) : Dict :=
  match a.node? with
  | .ok (.dict node _) => node
  | _ => []

/-- The node as it is without children, and otherwise with all of them merged in order into those
that it has already. -/
def grown (node : Dict) (children : List Dict) : Dict :=
  if children.isEmpty then node
  else node.insert "aggs" (.dict (children.foldl Entries.merge (below node)))

mutual

/-- The segments of a program: what each addition files in the end. -/
def segments : List Instruction → Dict
  | [] => []
  | .add name a :: p => (.text name, .dict (grown (nodeOf a) (children p))) :: segments p
  | .sub _ _ :: p => segments p

/-- The trees of the programs that are nested before the next addition. -/
def children : List Instruction → List Dict
  | [] => []
  | .add _ _ :: _ => []
  | .sub inner _ :: p => Entries.ofPairs (segments inner) :: children p

end

/-- The meaning of a program: the names come in the order of their first segments, each with what
its last segment gives. -/
def tree (p : List Instruction) : Dict := Entries.ofPairs (segments p)

/-- What is added is a dictionary below which children can be filed. -/
def Addable (a : Aggregation) : Prop :=
  ∃ node i, a.node? = .ok (.dict node i) ∧ Nestable node

theorem Addable.nodeOf {a : Aggregation} (h : Addable a) :
  (∃ i, a.node? = .ok (.dict (nodeOf a) i)) ∧ Nestable (nodeOf a)
  := by
  obtain ⟨node, i, hnode, hnestable⟩ := h
  have heq : Aggregations.nodeOf a = node := by
    unfold Aggregations.nodeOf
    rw [hnode]
  rw [heq]
  constructor
  · use i, hnode
  · apply hnestable

mutual

/-- A program may go on like this after an addition. -/
def Continues : List Instruction → Prop
  | [] => True
  | .add _ a :: p => Addable a ∧ Continues p
  | .sub inner _ :: p => WellFormed inner ∧ Continues p

/-- At no level anything is nested before the first addition, and all that is added is a dictionary
below which children can be filed. -/
def WellFormed : List Instruction → Prop
  | [] => True
  | .add _ a :: p => Addable a ∧ Continues p
  | .sub _ _ :: _ => False

end

/-! ### Children of a node -/

theorem grown_cons (node child : Dict) (cs : List Dict) :
  grown node (child :: cs) = grown (nested node child) cs
  := by
  cases cs with
  | nil => rfl
  | cons c cs =>
    change node.insert _ _ = (nested node child).insert _ _
    rw [below_nested]
    exact (Entries.insert_insert_self (Key.text "aggs") _ _ node).symm

theorem alike_foldl_merge {es ds : Dict} (h : es.Alike ds) (cs : List Dict) :
  Entries.Alike (cs.foldl Entries.merge es) (cs.foldl Entries.merge ds)
  := by
  induction cs generalizing es ds with
  | nil => apply h
  | cons c cs ih =>
    apply ih
    apply h.merge (Entries.Alike.refl c)

/-- It is all the same whether a child is a copy. -/
theorem alike_grown_nested {node c d : Dict} (h : c.Alike d) (cs : List Dict) :
  Entries.Alike (grown (nested node c) cs) (grown (nested node d) cs)
  := by
  have hmerge := (Entries.Alike.refl (below node)).merge h
  rw [← grown_cons, ← grown_cons]
  apply (Entries.Alike.refl node).insert
  apply Entries.Alike.contents_dict
  apply alike_foldl_merge hmerge

/-! ### Names of a tree -/

theorem texts_segments : (p : List Instruction) →
  Entries.Texts (segments p)
  | [] => by
    rw [segments]
    apply Entries.texts_nil
  | .add name _ :: p => by
    rw [segments]
    exact Entries.texts_cons.2 ⟨⟨name, rfl⟩, texts_segments p⟩
  | .sub _ _ :: p => by
    rw [segments]
    apply texts_segments p

theorem texts_tree (p : List Instruction) :
  Entries.Texts (tree p)
  := Entries.texts_nil.merge (texts_segments p)

/-! ### Runs -/

theorem run_cons (a : Aggregations) (step : Step) (rest : List Step) :
  a.run (step :: rest) = a.apply step >>= fun b => b.run rest
  := List.foldlM_cons

/-- What the callback of a program returns, where the program builds a tree. -/
theorem callback_returns {p : List Instruction} {es : Dict} {last : Value} (built : Bool)
    (hrun : new.run (steps p) = pure ⟨.dict es, last⟩) (halike : es.Alike (tree p)) :
  ∃ result cs i, callback (steps p) built new.toValue = pure result ∧
    Fragment.entriesOf "sub_agg" result = .ok (.dict cs i) ∧
    Entries.Alike cs (tree p)
  := by
  have hcallback : callback (steps p) built new.toValue =
      pure (if built then (⟨.dict es, last⟩ : Aggregations).build
        else (⟨.dict es, last⟩ : Aggregations).toValue) := by
    change (new.run (steps p) >>= _) = _
    rw [hrun]
    rfl
  cases built with
  | false =>
    use .aggregations (.dict es) last, es, .new, hcallback, rfl, halike
  | true =>
    have hcopy := ((texts_tree p).of_alike halike).copy_alike
    use Value.copy (.dict es), es.map fun e => (e.1.mapObject Value.copy, e.2.copy), .new, hcallback
    constructor
    · rw [Value.copy_dict]
      rfl
    · apply hcopy.trans halike

mutual

/-- From a state with a node filed last, a program builds what is left of the segment of that node
and its own segments. -/
theorem run_after (p : List Instruction) (h : Continues p) (es node : Dict) (name : String)
    (i : Identity) (hnode : Nestable node) :
  ∃ ds last, (⟨.dict (es.insert name (.dict node i)), .str name⟩ : Aggregations).run (steps p) =
      pure ⟨.dict ds, last⟩ ∧
    Entries.Alike ds (es.merge ((.text name, .dict (grown node (children p))) :: segments p))
  := by
  match p with
  | [] =>
    use es.insert name (.dict node i), .str name, rfl
    rw [children, segments, Entries.merge_cons, Entries.merge_nil]
    apply (Entries.Alike.refl es).insert
    apply (Entries.Alike.refl node).contents_dict
  | .add other a :: p =>
    rw [Continues] at h
    obtain ⟨⟨j, ha⟩, hnestable⟩ := h.1.nodeOf
    obtain ⟨ds, last, hrun, halike⟩ :=
      run_after p h.2 (es.insert name (.dict node i)) (nodeOf a) other j hnestable
    use ds, last
    constructor
    · rw [steps, Instruction.step, run_cons, apply_add other ha, pure_bind, hrun]
    · apply halike.trans
      rw [segments, children, Entries.merge_cons es]
      apply Entries.Alike.merge _ (Entries.Alike.refl _)
      apply (Entries.Alike.refl es).insert
      apply (Entries.Alike.refl node).contents_dict
  | .sub inner built :: p =>
    rw [Continues] at h
    obtain ⟨fs, childLast, hchild, hchildAlike⟩ := run_program inner h.1
    obtain ⟨result, cs, k, hcallback, hentries, hcs⟩ :=
      callback_returns built hchild hchildAlike
    obtain ⟨ds, last, hrun, halike⟩ :=
      run_after p h.2 es (nested node cs) name .new (nestable_nested node cs)
    use ds, last
    constructor
    · have hfind := Entries.find?_insert_text name (.dict node i) es
      rw [steps, Instruction.step, run_cons, apply_nest hfind hnode hcallback hentries, pure_bind,
        Entries.insert_insert_self, hrun]
    · apply halike.trans
      rw [segments, children, grown_cons, Entries.merge_cons, Entries.merge_cons]
      apply Entries.Alike.merge _ (Entries.Alike.refl _)
      apply (Entries.Alike.refl es).insert
      apply Entries.Alike.contents_dict
      apply alike_grown_nested hcs

/-- A program builds its tree. -/
theorem run_program (p : List Instruction) (h : WellFormed p) :
  ∃ es last, new.run (steps p) = pure ⟨.dict es, last⟩ ∧
    Entries.Alike es (tree p)
  := by
  match p with
  | [] =>
    use [], .null, rfl
    rw [tree, segments]
    apply Entries.Alike.refl
  | .add name a :: p =>
    rw [WellFormed] at h
    obtain ⟨⟨i, ha⟩, hnestable⟩ := h.1.nodeOf
    obtain ⟨ds, last, hrun, halike⟩ := run_after p h.2 [] (nodeOf a) name i hnestable
    use ds, last
    constructor
    · rw [steps, Instruction.step, run_cons]
      change (apply ⟨.dict [], .null⟩ (.add (.str name) a) >>= _) = _
      rw [apply_add name ha, pure_bind, hrun]
    · rw [tree, segments]
      apply halike
  | .sub _ _ :: _ =>
    rw [WellFormed] at h
    cases h

end

/-- The names that a program adds, in order. -/
def added : List Instruction → List Name
  | [] => []
  | .add name _ :: p => .text name :: added p
  | .sub _ _ :: p => added p

theorem names_segments (p : List Instruction) :
  Entries.names (segments p) = added p
  := by
  induction p with
  | nil => rw [segments, added, Entries.names_nil]
  | cons i p ih =>
    cases i with
    | add name a =>
      rw [segments, added, Entries.names_cons, ih]
      rfl
    | sub inner built => rw [segments, added, ih]

/-- A program runs without a fault and builds its tree: its names come in the order in which they
are first added, and each has what the last segment that adds it gives. -/
theorem run_builds_tree (p : List Instruction) (h : WellFormed p) :
  ∃ a, new.run (steps p) = pure a ∧ a.build.contents = (Value.dict (tree p)).contents ∧
    Entries.names (tree p) = (added p).eraseDups ∧
    ∀ name, Entries.find? name (tree p) = Entries.find? name (segments p).reverse
  := by
  obtain ⟨es, last, hrun, halike⟩ := run_program p h
  use ⟨.dict es, last⟩, hrun
  constructor
  · rw [build, State.snapshot, Value.contents_copy]
    apply halike.contents_dict
  · constructor
    · rw [tree, Entries.names_ofPairs, names_segments]
    · intro name
      rw [tree, Entries.find?_ofPairs]

/-- A name that is added twice, with a program nested after the second time. -/
theorem run_builds_last_segment :
  ∃ a,
    new.run (steps [.add "x" (.topHits .null), .add "y" (.topHits .null),
      .add "x" (.node (.single "sum" .empty)), .sub [.add "z" (.topHits .null)] true]) = pure a ∧
    a.build.contents = (Value.dict [("x", .dict [("sum", .empty),
      ("aggs", .single "z" (.single "top_hits" .empty))]),
      ("y", .single "top_hits" .empty)]).contents
  := by
  have hhits : Addable (.topHits .null) := by
    use [("top_hits", .empty)], .new, rfl
    intro v hv
    cases hv
  have hsum : Addable (.node (.single "sum" .empty)) := by
    use [("sum", .empty)], .new, rfl
    intro v hv
    cases hv
  have hprogram : WellFormed [.add "x" (.topHits .null), .add "y" (.topHits .null),
      .add "x" (.node (.single "sum" .empty)), .sub [.add "z" (.topHits .null)] true] := by
    simp only [WellFormed, Continues, and_true]
    exact ⟨hhits, hhits, hsum, hhits⟩
  obtain ⟨a, hrun, hbuild, -, -⟩ := run_builds_tree _ hprogram
  use a, hrun
  rw [hbuild, tree]
  simp only [segments, children]
  rfl

end Aggregations

end SearchDsl
