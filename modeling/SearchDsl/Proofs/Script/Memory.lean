import SearchDsl.Proofs.Contents
import SearchDsl.Script.Eval

/-!
# Memories without changes

As long as nothing has been changed in place (`Memory.Unchanged`), a value is what it was when it
was made, and all that a memory does is to give numbers, which leave the contents of values as they
are (`Memory.contents_adopt`).  Whatever is evaluated, the numbers that are given on the way are
those of one depth (`Run.KeepsDepth`).
-/

namespace SearchDsl

namespace Script

/-! ### Numbering -/

namespace Numbering

/-- What keeps the depth of the numbers that are taken. -/
abbrev atDepth (depth : Nat) : Always (StateM Numbering) := .state fun s => s.next.depth = depth

theorem always_take (depth : Nat) :
  (atDepth depth).holds (fun _ => True) take
  := fun _ hs => ⟨trivial, hs⟩

/-- Whatever is marked, the numbers that are taken are those of one depth. -/
theorem always_mark (depth : Nat) (identity : Identity) :
  (atDepth depth).holds (fun _ => True) (mark identity)
  := by
  cases identity with
  | known n => apply (atDepth depth).pure trivial
  | new =>
    apply (atDepth depth).bind (always_take depth)
    intro n _
    apply (atDepth depth).pure trivial
  | copyOf other =>
    have hget : (atDepth depth).holds (fun _ => True) get := fun _ hs => ⟨trivial, hs⟩
    apply (atDepth depth).bind hget
    intro s _
    split
    · apply (atDepth depth).pure trivial
    · apply (atDepth depth).bind (always_take depth)
      intro n _
      have hmodify : (atDepth depth).holds (fun _ => True)
          (modify fun s : Numbering => { s with copies := (other, n) :: s.copies }) :=
        fun _ hs => ⟨trivial, hs⟩
      apply (atDepth depth).bind hmodify
      intro _ _
      apply (atDepth depth).pure trivial

theorem contents_numbered? (v : Value) (i : Identity) (w : Value) (h : numbered? v i = some w) :
  w.contents = v.contents
  := by
  unfold numbered? at h
  split at h
  · rw [← Option.some.inj h]
  · cases h

end Numbering

namespace Memory

variable {m : Memory}

/-- Giving numbers keeps the contents of a value. -/
theorem contents_adopt (m : Memory) (v : Value) :
  (m.adopt v).1.contents = v.contents
  := by
  have h := Value.contents_traverse Numbering.contents_numbered?
    (Numbering.always_mark m.next.depth) v ⟨m.next, []⟩ rfl
  apply h.1

theorem depth_adopt (m : Memory) (v : Value) :
  (m.adopt v).2.next.depth = m.next.depth
  := by
  have h := Value.contents_traverse Numbering.contents_numbered?
    (Numbering.always_mark m.next.depth) v ⟨m.next, []⟩ rfl
  apply h.2

theorem depth_adoptContents (m : Memory) (v : Value) :
  (m.adoptContents v).2.next.depth = m.next.depth
  := by
  cases v with
  | list items i =>
    have h := Value.contents_traverseAll Numbering.contents_numbered?
      (Numbering.always_mark m.next.depth) items ⟨m.next, []⟩ rfl
    apply h.2
  | dict es i =>
    have h := Value.contents_traverseEntries Numbering.contents_numbered?
      (Numbering.always_mark m.next.depth) es ⟨m.next, []⟩ rfl
    apply h.2
  | _ => rfl

theorem depth_commitAll (m : Memory) (changes : List Change) :
  (m.commitAll changes).next.depth = m.next.depth
  := by
  induction changes generalizing m with
  | nil => rfl
  | cons c changes ih =>
    rw [commitAll, List.foldl_cons]
    apply (ih (m.commit c)).trans
    apply depth_adoptContents

/-- Nothing has been changed in place. -/
structure Unchanged (m : Memory) : Prop where
  changes : m.changes = []
  cyclic : m.cyclic = []

theorem Unchanged.current (h : m.Unchanged) (v : Value) :
  m.current v = v
  := by
  rw [Memory.current, h.changes]
  rfl

theorem Unchanged.adopt (h : m.Unchanged) (v : Value) :
  (m.adopt v).2.Unchanged
  := by
  constructor
  · apply h.changes
  · have hnone : ∀ copies, m.cyclicCopies copies = [] := by
      intro copies
      rw [cyclicCopies, h.cyclic]
      simp
    change m.cyclicCopies _ ++ m.cyclic = []
    rw [hnone, h.cyclic]
    rfl

end Memory

/-! ### Evaluating -/

namespace Run

variable {α β : Type} {call : Memory → Calls} {s s' : Session}

theorem run_bind_ok {x : Run α} {a : α} (h : x.run s = (.ok a, s')) (f : α → Run β) :
  (x >>= f).run s = (f a).run s'
  := by
  change ExceptT.bindCont f (x.run s).1 (x.run s).2 = _
  rw [h]
  rfl

theorem run_bind_error {x : Run α} {fault : Fault} (h : x.run s = (.error fault, s'))
    (f : α → Run β) :
  (x >>= f).run s = (.error fault, s')
  := by
  change ExceptT.bindCont f (x.run s).1 (x.run s).2 = _
  rw [h]
  rfl

theorem run_mapM_current (vs : List Value) (s : Session) :
  (vs.mapM current).run s = (.ok (vs.map s.memory.current), s)
  := by
  induction vs with
  | nil => rfl
  | cons v vs ih =>
    have hcurrent : (current v).run s = (.ok (s.memory.current v), s) := rfl
    rw [List.mapM_cons, run_bind_ok hcurrent, run_bind_ok ih]
    rfl

/-- Performing an operation makes its changes, whether or not it fails. -/
theorem run_perform (call : Memory → Calls) (operation : Build α) (s : Session) :
  (perform call operation).run s =
    ((operation (call s.memory)).result,
      ⟨s.warnings + (operation (call s.memory)).warnings,
        s.memory.commitAll (operation (call s.memory)).changes⟩)
  := by
  have hget : (get : Run Session).run s = (.ok s, s) := rfl
  have hset : ∀ t : Session, (set t : Run PUnit).run s = (.ok ⟨⟩, t) := fun _ => rfl
  rw [perform, run_bind_ok hget, run_bind_ok (hset _)]
  cases (operation (call s.memory)).result
  all_goals rfl

/-- An operation that fails without changing anything leaves the memory as it is. -/
theorem run_make_of_error {operation : Build Value} {fault : Fault}
    (hnone : (operation (call s.memory)).changes = [])
    (h : (operation (call s.memory)).result = .error fault) :
  (make call operation).run s =
    (.error fault, ⟨s.warnings + (operation (call s.memory)).warnings, s.memory⟩)
  := by
  have hperform := run_perform call operation s
  rw [h, hnone] at hperform
  apply run_bind_error hperform

/-- An operation that changes nothing makes its result with new numbers, and nothing else. -/
theorem run_make_of_ok {operation : Build Value} {v : Value} (hs : s.memory.Unchanged)
    (hnone : (operation (call s.memory)).changes = [])
    (h : (operation (call s.memory)).result = .ok v) :
  (make call operation).run s =
    (.ok (s.memory.adopt v).1,
      ⟨s.warnings + (operation (call s.memory)).warnings, (s.memory.adopt v).2⟩)
  := by
  have hperform := run_perform call operation s
  rw [h, hnone] at hperform
  rw [make, run_bind_ok hperform]
  change (adopt (s.memory.current v)).run _ = _
  rw [hs.current]
  rfl

/-- The arguments of an operation are what they are when nothing has been changed. -/
theorem run_apply (hs : s.memory.Unchanged) (method : Option Method) (args : List Value)
    (named : Value) :
  (apply call method args named).run s = (make call (applyMethod method args named)).run s
  := by
  have hargs : args.map s.memory.current = args := by
    rw [funext hs.current, List.map_id']
  have hnamed : (current named).run s = (.ok (s.memory.current named), s) := rfl
  rw [hs.current] at hnamed
  rw [apply, run_bind_ok (run_mapM_current args s), hargs, run_bind_ok hnamed]

/-! ### Depths -/

/-- Evaluating takes numbers of the depth of the memory. -/
def KeepsDepth (x : Run α) : Prop := ∀ s, (x.run s).2.memory.next.depth = s.memory.next.depth

namespace KeepsDepth

theorem pure (a : α) :
  KeepsDepth (Pure.pure a)
  := fun _ => rfl

theorem throw (fault : Fault) :
  KeepsDepth (MonadExcept.throw fault : Run α)
  := fun _ => rfl

theorem bind {x : Run α} {f : α → Run β} (hx : KeepsDepth x) (hf : ∀ a, KeepsDepth (f a)) :
  KeepsDepth (x >>= f)
  := by
  intro s
  have h := hx s
  rcases hrun : x.run s with ⟨result, s'⟩
  rw [hrun] at h
  cases result with
  | error fault =>
    rw [run_bind_error hrun]
    apply h
  | ok a =>
    rw [run_bind_ok hrun, hf a s']
    apply h

theorem current (v : Value) :
  KeepsDepth (Run.current v)
  := fun _ => rfl

theorem mapM_current (vs : List Value) :
  KeepsDepth (vs.mapM Run.current)
  := by
  intro s
  rw [run_mapM_current]

theorem adopt (v : Value) :
  KeepsDepth (Run.adopt v)
  := fun s => s.memory.depth_adopt v

theorem perform (operation : Build α) :
  KeepsDepth (Run.perform call operation)
  := by
  intro s
  rw [run_perform]
  apply Memory.depth_commitAll

theorem make (operation : Build Value) :
  KeepsDepth (Run.make call operation)
  := by
  apply (perform operation).bind
  intro v
  apply (current v).bind
  apply adopt

theorem apply (method : Option Method) (args : List Value) (named : Value) :
  KeepsDepth (Run.apply call method args named)
  := by
  apply (mapM_current args).bind
  intro args
  apply (current named).bind
  intro named
  apply make

end KeepsDepth

end Run

end Script

end SearchDsl
