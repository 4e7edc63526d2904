import SearchDsl.Build
import SearchDsl.Value.Identity

/-!
# Memories

What has an identity gets a number when a script makes it.  A `Memory` knows the number that
comes next, and which lists and dictionaries have been changed in place so far.  A call of a
function has numbers of its own, so that it does not matter to it how many are taken outside
(`Memory.inside`).  A value has
its contents at hand as they were when it was made; `Memory.current` is the value as it is
after all changes, and `Memory.adopt` gives numbers to what is new in a value.

A call of a function starts from the memory of the operation that calls it, after the changes
that the operation has made so far.  Of what the call makes, only its result is left
afterwards, which is new again (`Memory.released`), and the changes of what was there before
(`Memory.changesSince`).
-/

namespace SearchDsl

namespace Script

/-- The numbering of what is new in a value; the copies of one are one copy. -/
structure Numbering where
  next : Serial
  copies : List (Identity × Serial)

/-- Takes the next number. -/
def Numbering.take : StateM Numbering Serial :=
  modifyGet fun s => (s.next, { s with next := ⟨s.next.depth, s.next.place + 1⟩ })

/-- Gives a number to what has none. -/
def Numbering.mark (identity : Identity) : StateM Numbering Identity := do
  match identity with
  | .known n => return .known n
  | .new => return .known (← take)
  | .copyOf other =>
    match (← get).copies.lookup other with
    | some n => return .known n
    | none =>
      let n ← take
      modify fun s => { s with copies := (other, n) :: s.copies }
      return .known n

/-- What has a number, as it is; all that it holds and that has an identity has one too. -/
def Numbering.numbered? (v : Value) : Identity → Option Value
  | .known _ => some v
  | _ => none

/-- A list or dictionary with all that it holds changed. -/
def mapContents (f : Value → Value) : Value → Value
  | .list items identity => .list (items.map f) identity
  | .dict entries identity => .dict (entries.map fun e => (e.1, f e.2)) identity
  | v => v

/-- What has been made and changed in place. -/
structure Memory where
  next : Serial
  /-- The changes in order. -/
  changes : List Change
  /-- The numbers of what holds itself. -/
  cyclic : List Serial

namespace Memory

/-- Nothing has been made. -/
def empty : Memory := ⟨0, [], []⟩

/-- A value after a change. -/
def after (v : Value) (c : Change) : Value :=
  (v.traverse (fun _ identity => if identity = .known c.number then some c.contents else none)
    fun identity => (identity : Id Identity) : Id Value)

/-- A value after all changes. -/
def current (m : Memory) (v : Value) : Value := m.changes.foldl after v

/-- The numbers of copies of what holds itself. -/
def cyclicCopies (m : Memory) (copies : List (Identity × Serial)) : List Serial :=
  (copies.filter fun copy => m.cyclic.any fun number => copy.1 = .known number).map Prod.snd

/-- What comes of numbering, and the memory in which the numbers are taken. -/
def number {α : Type} (m : Memory) (x : StateM Numbering α) : α × Memory :=
  let (a, numbering) := x.run ⟨m.next, []⟩
  (a, ⟨numbering.next, m.changes, m.cyclicCopies numbering.copies ++ m.cyclic⟩)

/-- A value with numbers for what is new in it. -/
def adopt (m : Memory) (v : Value) : Value × Memory :=
  m.number (v.traverse Numbering.numbered? Numbering.mark)

/-- A list or dictionary with numbers for what is new in what it holds. -/
def adoptContents (m : Memory) : Value → Value × Memory
  | .list items identity =>
    m.number ((.list · identity) <$> Value.traverseAll Numbering.numbered? Numbering.mark items)
  | .dict entries identity =>
    m.number
      ((.dict · identity) <$> Value.traverseEntries Numbering.numbered? Numbering.mark entries)
  | v => (v, m)

/-- A value holds what has the given number. -/
def holds (number : Serial) (v : Value) : Bool :=
  let look (identity : Identity) : StateM Bool Identity := do
    if identity = .known number then set true
    return identity
  ((v.traverse (fun _ _ => none) look).run false).2

/-- A value that holds itself holds what has the given number. -/
def holdsItself (m : Memory) (v : Value) : Bool := m.cyclic.any fun number => holds number v

/-- What has the given number holds itself by now; a copy that was not changed does so still. -/
def staysCyclic (m : Memory) (number : Serial) : Bool :=
  match m.current (.list [] (.known number)) with
  | .list [] _ => !m.changes.any fun c => c.number == number
  | .list items _ => items.any (holds number)
  | .dict entries _ => entries.any fun e => holds number e.2
  | _ => false

/-- The memory after a change. -/
def commit (m : Memory) (c : Change) : Memory :=
  let (contents, m) := m.adoptContents (mapContents m.current c.contents)
  let m : Memory := { m with changes := m.changes ++ [⟨c.number, contents⟩] }
  { m with cyclic := (c.number :: m.cyclic.filter (· != c.number)).filter m.staysCyclic }

/-- The memory after some changes. -/
def commitAll (m : Memory) (changes : List Change) : Memory := changes.foldl commit m

/-- The memory that a call of a function starts from. -/
def inside (m : Memory) : Memory := { m with next := ⟨m.next.depth + 1, 0⟩ }

/-- What has the given number was not made in a call from this memory. -/
def knows (m : Memory) (number : Serial) : Bool := number.depth ≤ m.next.depth

/-- A value without the numbers of what was made in a call from this memory. -/
def released (m : Memory) (v : Value) : Value :=
  v.mapIdentities fun identity =>
    match identity with
    | .known n => if m.knows n then .known n else .new
    | identity => identity

/-- The changes that a later memory has seen of what was there before. -/
def changesSince (m later : Memory) : List Change :=
  ((later.changes.drop m.changes.length).filter fun c => m.knows c.number).map fun c =>
    ⟨c.number, m.released (mapContents later.current c.contents)⟩

end Memory

/-- What is kept while an expression is evaluated. -/
structure Session where
  /-- The number of warnings that were reported. -/
  warnings : Nat
  memory : Memory

/-- Evaluating to a value of `α` or a fault; what is kept is kept with a fault as well. -/
abbrev Run (α : Type) := ExceptT Fault (StateM Session) α

namespace Run

/-- A value after all changes so far. -/
def current (v : Value) : Run Value := return (← get).memory.current v

/-- A value with numbers for what is new in it. -/
def adopt (v : Value) : Run Value :=
  modifyGet fun session =>
    let (v, memory) := session.memory.adopt v
    (v, { session with memory })

/-- Performs an operation, where `call` says what calling a value comes to. -/
def perform {α : Type} (call : Memory → Calls) (operation : Build α) : Run α := do
  let session ← get
  let outcome := operation (call session.memory)
  let memory := session.memory.commitAll outcome.changes
  set (⟨session.warnings + outcome.warnings, memory⟩ : Session)
  match outcome.result with
  | .ok a => return a
  | .error fault => throw fault

/-- What a call from an operation comes to, from how its evaluation has ended; it started from the
memory of the operation. -/
def outcome (memory : Memory) (session : Session) (result : Except Fault Value) : Outcome Value :=
  let later := session.memory
  ⟨session.warnings, memory.changesSince later,
    result.map fun v => memory.released (later.current v)⟩

end Run

end Script

end SearchDsl
