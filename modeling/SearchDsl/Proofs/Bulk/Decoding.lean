import SearchDsl.Proofs.Bulk
import SearchDsl.Script.Eval

/-!
# Taking the lines of a bulk request apart

The lines of a bulk request are one list without marks in it: a line may be the header of an
operation or the body of the one before it, and a body may look like a header.  They can still be
taken apart (`Operation.decode`), since the action in a header tells whether a body follows, and
give back the operations of the request one by one (`Bulk.decode_lines`).
-/

namespace SearchDsl

namespace Operation

/-- The action and the header on a line, where it has the form of the first line of an operation. -/
def headed? : Value → Option (Action × Value)
  | .dict [(key, header)] _ => (Action.ofWord? key.word).map (·, header)
  | _ => none

/-- The operations that some lines stand for, where each line for an action but a deletion is
followed by a body. -/
def decode : List Value → Option (List Operation)
  | [] => some []
  | line :: rest =>
    match headed? line with
    | some (.delete, header) => (decode rest).map (⟨.action .delete, header, .null⟩ :: ·)
    | some (a, header) =>
      match rest with
      | body :: rest => (decode rest).map (⟨.action a, header, body⟩ :: ·)
      | [] => none
    | none => none

/-- The operation with a known action, and without a body when it deletes. -/
def HasAction (o : Operation) (a : Action) : Prop :=
  o.action = .action a ∧ (a = .delete → o.body = .null)

/-- The copy of an operation. -/
def copy (o : Operation) : Operation := ⟨o.action.copy, o.header.copy, o.body.copy⟩

theorem headed?_single (a : Action) (header : Value) :
  headed? (Value.single a.word header).copy = some (a, header.copy)
  := by
  rw [Value.single, Value.copy_dict]
  cases a
  all_goals rfl

theorem decode_delete {line header : Value} (h : headed? line = some (.delete, header))
    (rest : List Value) :
  decode (line :: rest) = (decode rest).map (⟨.action .delete, header, .null⟩ :: ·)
  := by
  rw [decode, h]

theorem decode_body {line header : Value} {a : Action} (h : headed? line = some (a, header))
    (ha : a ≠ .delete) (body : Value) (rest : List Value) :
  decode (line :: body :: rest) = (decode rest).map (⟨.action a, header, body⟩ :: ·)
  := by
  rw [decode, h]
  cases a with
  | delete => exact absurd rfl ha
  | _ => rfl

/-- An operation has one line or two, and what is read from copies of them is a copy of the
operation, whatever follows. -/
theorem HasAction.lines {o : Operation} {a : Action} (h : o.HasAction a) :
  ∃ ls, o.lines = .ok ls ∧ ls.length + (if a = .delete then 1 else 0) = 2 ∧
    ∀ rest, decode (ls.map Value.copy ++ rest) = (decode rest).map (o.copy :: ·)
  := by
  obtain ⟨act, header, body⟩ := o
  obtain ⟨haction, hbody⟩ := h
  obtain rfl : act = .action a := haction
  have hhead := headed?_single a header
  by_cases ha : a = .delete
  · subst ha
    obtain rfl : body = .null := hbody rfl
    use [.single Action.delete.word header], rfl, rfl
    intro rest
    apply decode_delete hhead
  · use [.single a.word header, body]
    constructor
    · cases a with
      | delete => exact absurd rfl ha
      | _ => rfl
    constructor
    · rw [if_neg ha]
      rfl
    · intro rest
      apply decode_body hhead ha

end Operation

namespace Bulk

/-- The action of a step. -/
def Step.action : Step → Action
  | .index _ _ => .index
  | .create _ _ => .create
  | .update _ => .update
  | .delete _ => .delete

theorem Step.yields_operation (step : Step) :
  Build.Yields (fun o => o.HasAction step.action) step.operation
  := by
  cases step with
  | index doc header =>
    apply Build.Yields.bind
    intro w
    apply Build.Yields.pure
    exact ⟨rfl, nofun⟩
  | create doc header =>
    apply Build.Yields.bind
    intro w
    apply Build.Yields.pure
    exact ⟨rfl, nofun⟩
  | update given =>
    apply Build.Yields.bind
    intro es
    apply Build.Yields.bind
    intro body
    apply Build.Yields.pure
    exact ⟨rfl, nofun⟩
  | delete header =>
    apply Build.Yields.bind
    intro w
    apply Build.Yields.pure
    exact ⟨rfl, fun _ => rfl⟩

/-- Some operations have lines, two for each but one for a deletion, and what is read from copies of
them are copies of the operations. -/
theorem exists_lines {actions : List Action} {os : List Operation}
    (h : List.Forall₂ (fun a (o : Operation) => o.HasAction a) actions os) :
  ∃ lss, os.mapM Operation.lines = .ok lss ∧
    lss.flatten.length + actions.count .delete = 2 * actions.length ∧
    Operation.decode (lss.flatten.map Value.copy) = some (os.map Operation.copy)
  := by
  induction h with
  | nil => exact ⟨[], rfl, rfl, rfl⟩
  | @cons a o actions os ho _ ih =>
    obtain ⟨ls, hls, hlength, hread⟩ := ho.lines
    obtain ⟨lss, hlss, hlengths, hreads⟩ := ih
    use ls :: lss
    constructor
    · rw [List.mapM_cons, hls, hlss]
      rfl
    constructor
    · rw [List.flatten_cons, List.length_append, List.count_cons, List.length_cons]
      simp only [beq_iff_eq]
      omega
    · rw [List.flatten_cons, List.map_append, hread, hreads]
      rfl

/-- The operations of a request have the actions of its steps. -/
theorem hasAction_of_gives {steps : List Step} {calls : Calls} {os : List Operation}
    (h : List.Forall₂ (fun step o => Build.Gives step.operation calls o) steps os) :
  List.Forall₂ (fun a (o : Operation) => o.HasAction a) (steps.map Step.action) os
  := by
  rw [List.forall₂_map_left_iff]
  apply h.imp
  rintro step o ⟨earlier, ho⟩
  apply step.yields_operation _ o ho

/-- The operations of a request are those of its steps, in order. -/
theorem exists_operations {encoding : Value} {steps : List Step} {calls : Calls} {b : Bulk}
    (h : ((new encoding).run steps calls).result = .ok b) :
  ∃ os : List Operation, b = ⟨os.map Operation.toValue, encoding⟩ ∧
    List.Forall₂ (fun step o => Build.Gives step.operation calls o) steps os
  := by
  rw [run_eq] at h
  obtain ⟨os, hos, hb⟩ := Build.exists_of_bind_ok h
  use os, (Except.ok.inj hb).symm, Build.gives_of_mapM hos

/-- Copies of some values have their contents. -/
theorem contents_copies (vs : List Value) :
  (vs.map Value.copy).map Value.contents = vs.map Value.contents
  := by
  rw [List.map_map]
  apply List.map_congr_left
  intro v _
  apply Value.contents_copy

/-- The lines of a bulk request are two for each step but one for a deletion.  Taken apart they give
back copies of the operations of the request, with the contents of these, and they are the operations
of the steps, in order. -/
theorem decode_lines (encoding : Value) (steps : List Step) (calls : Calls) (b : Bulk)
    (h : ((new encoding).run steps calls).result = .ok b) :
  ∃ lines os, b.lines = .ok lines ∧
    lines.length + (steps.map Step.action).count .delete = 2 * steps.length ∧
    Operation.decode lines = some os ∧
    os.map Operation.toValue = b.operations.map Value.copy ∧
    (os.map Operation.toValue).map Value.contents = b.operations.map Value.contents ∧
    List.Forall₂ (fun step v => ∃ o, v = o.toValue ∧ o.HasAction step.action ∧
      Build.Gives step.operation calls o) steps b.operations
  := by
  obtain ⟨os, rfl, hgives⟩ := exists_operations h
  obtain ⟨lss, hlss, hlength, hread⟩ := exists_lines (hasAction_of_gives hgives)
  use lss.flatten.map Value.copy, os.map Operation.copy, lines_toValue hlss encoding
  constructor
  · rw [List.length_map, hlength, List.length_map]
  constructor
  · apply hread
  have hcopies : (os.map Operation.copy).map Operation.toValue =
      (os.map Operation.toValue).map Value.copy := by
    rw [List.map_map, List.map_map]
    rfl
  use hcopies
  constructor
  · rw [hcopies]
    apply contents_copies
  · rw [List.forall₂_map_right_iff]
    apply hgives.imp
    rintro step o ⟨earlier, ho⟩
    use o, rfl, step.yields_operation _ o ho
    use earlier

/-- A document that looks like the header of a deletion, between a deletion and a document that is
null. -/
theorem decode_lines_of_lookalike :
  ∃ b lines os, ((new .null).run [.delete (.single "_id" (.int 1)),
      .index (.single "delete" .empty) .null, .create .null (.single "_id" (.int 2))]
      (Script.callIn [] .empty)).result = .ok b ∧
    b.lines = .ok lines ∧ lines.length = 5 ∧ Operation.decode lines = some os ∧
    (os.map Operation.toValue).map Value.contents = b.operations.map Value.contents
  := by
  let steps : List Step := [.delete (.single "_id" (.int 1)),
    .index (.single "delete" .empty) .null, .create .null (.single "_id" (.int 2))]
  let calls : Calls := Script.callIn [] .empty
  obtain ⟨b, hb⟩ : ∃ b, ((new .null).run steps calls).result = .ok b := ⟨_, rfl⟩
  obtain ⟨lines, os, hlines, hlength, hread, -, hos, -⟩ := decode_lines .null steps calls b hb
  use b, lines, os, hb, hlines, Nat.succ.inj hlength, hread, hos

end Bulk

end SearchDsl
