import SearchDsl.Proofs.Script.Memory

/-!
# Calls from memories without changes

Whatever an expression is, evaluating it takes numbers of one depth (`Expr.keepsDepth_eval`).  A
call takes numbers of its own, and what it makes is new to the operation that calls it; so where
nothing has been changed in place, what a call comes to does not depend on how many numbers are
taken (`callWithin_of_unchanged`).
-/

namespace SearchDsl

namespace Script

namespace Expr

variable (call : Memory → Calls) (scope : Scope)

open Run

mutual

theorem keepsDepth_eval : (e : Expr) →
  KeepsDepth (e.eval call scope)
  | .null => .pure _
  | .bool _ => .pure _
  | .int _ => .pure _
  | .float _ => .pure _
  | .str _ => .pure _
  | .marked mark text => by
    rw [eval]
    cases Value.ofMarked mark text with
    | error fault => exact fun _ => rfl
    | ok v => apply KeepsDepth.adopt
  | .ref name => by
    rw [eval]
    split
    · apply KeepsDepth.current
    · apply KeepsDepth.throw
  | .list items => by
    rw [eval]
    apply (keepsDepth_evalList items).bind
    intro vs
    apply KeepsDepth.adopt
  | .dict entries => by
    rw [eval]
    apply (keepsDepth_evalEntries entries).bind
    intro es
    apply KeepsDepth.adopt
  | .query name params => by
    rw [eval]
    apply (keepsDepth_eval params).bind
    intro v
    apply KeepsDepth.make
  | .search body => by
    rw [eval]
    apply (keepsDepth_eval body).bind
    intro v
    apply KeepsDepth.make
  | .create factory args named => by
    rw [eval]
    apply (keepsDepth_evalList args).bind
    intro vs
    apply (keepsDepth_eval named).bind
    intro v
    apply KeepsDepth.apply
  | .invoke name args named => by
    rw [eval]
    apply (keepsDepth_evalList args).bind
    intro vs
    apply (keepsDepth_eval named).bind
    intro v
    apply KeepsDepth.apply
  | .call receiver method args named => by
    rw [eval]
    apply (keepsDepth_eval receiver).bind
    intro r
    apply (keepsDepth_evalList args).bind
    intro vs
    apply (keepsDepth_eval named).bind
    intro v
    apply (KeepsDepth.current r).bind
    intro r
    apply KeepsDepth.apply
  | .function _ _ => KeepsDepth.adopt _
  | .orElse first second => by
    rw [eval]
    apply (keepsDepth_eval first).bind
    intro v
    split
    · apply KeepsDepth.pure
    · apply keepsDepth_eval second
  | .member subject name => by
    rw [eval]
    apply (keepsDepth_eval subject).bind
    intro v
    apply KeepsDepth.make
  | .item subject index => by
    rw [eval]
    apply (keepsDepth_eval subject).bind
    intro v
    apply KeepsDepth.make

theorem keepsDepth_evalList : (es : List Expr) →
  KeepsDepth (evalList call scope es)
  | [] => .pure _
  | e :: es => by
    rw [evalList]
    apply (keepsDepth_eval e).bind
    intro v
    apply (keepsDepth_evalList es).bind
    intro vs
    apply KeepsDepth.pure

theorem keepsDepth_evalEntries : (es : List (String × Expr)) →
  KeepsDepth (evalEntries call scope es)
  | [] => .pure _
  | (name, e) :: es => by
    rw [evalEntries]
    apply (keepsDepth_eval e).bind
    intro v
    apply (keepsDepth_evalEntries es).bind
    intro vs
    apply KeepsDepth.pure

end

end Expr

/-- From two memories without changes, in as many calls, a call comes to the same. -/
theorem callWithin_of_unchanged (env : Env) (depth : Nat) {m m' : Memory} (h : m.Unchanged)
    (h' : m'.Unchanged) (hdepth : m.next.depth = m'.next.depth) :
  callWithin env depth m [] = callWithin env depth m' []
  := by
  have hinside : m.inside = m'.inside := by
    rw [Memory.inside, Memory.inside, hdepth, h.changes, h'.changes, h.cyclic, h'.cyclic]
  have hknows : m.knows = m'.knows := by
    funext number
    rw [Memory.knows, Memory.knows, hdepth]
  have hreleased : m.released = m'.released := by
    funext v
    rw [Memory.released, Memory.released, hknows]
  have houtcome : Run.outcome m = Run.outcome m' := by
    funext session result
    rw [Run.outcome, Run.outcome, Memory.changesSince, Memory.changesSince, hknows, hreleased,
      h.changes, h'.changes]
  funext f argument
  cases depth with
  | zero =>
    cases f
    all_goals rfl
  | succ depth =>
    cases f with
    | function param body kept i =>
      have hcommit : ∀ m : Memory, m.commitAll [] = m := fun _ => rfl
      simp only [callWithin, hcommit, h.current, h'.current, hinside, houtcome]
    | _ => rfl

end Script

end SearchDsl
