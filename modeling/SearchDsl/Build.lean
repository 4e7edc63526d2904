import SearchDsl.Value.Basic

/-!
# Builds

A `Build α` is the composing of a part of a request: where it is known what calling a value
comes to, it has an `Outcome`, which is a value of `α` or a fault, together with the number
of warnings that were reported on the way and the changes in place that were made.
Warnings and changes add up in sequence and are kept when a later step fails.  What a call
comes to depends on the changes before it.  What has been read or stored before a change is
not looked up again in the same build; scripts do that between their operations.
-/

namespace SearchDsl

/-- A change in place: what the list or dictionary of a number holds from then on. -/
structure Change where
  number : Serial
  contents : Value

/-- What a computation comes to. -/
structure Outcome (α : Type) where
  warnings : Nat
  /-- The changes in place, in order. -/
  changes : List Change
  result : Except Fault α

namespace Outcome

variable {α β : Type}

/-- A result without warnings and changes. -/
def of (result : Except Fault α) : Outcome α := ⟨0, [], result⟩

/-- The outcome `y` with the warnings and changes of `x` before its own. -/
def andThen (x : Outcome α) (y : Outcome β) : Outcome β :=
  ⟨x.warnings + y.warnings, x.changes ++ y.changes, y.result⟩

end Outcome

/-- What calling a value with an argument comes to after some changes. -/
abbrev Calls := List Change → Value → Value → Outcome Value

/-- What calls come to after some changes. -/
def Calls.after (calls : Calls) (earlier : List Change) : Calls := fun later =>
  calls (earlier ++ later)

@[simp]
theorem Calls.after_nil (calls : Calls) :
  calls.after [] = calls
  := rfl

theorem Calls.after_after (calls : Calls) (first second : List Change) :
  (calls.after first).after second = calls.after (first ++ second)
  := by
  funext later
  simp [after, List.append_assoc]

/-- What comes of composing a part of a request. -/
def Build (α : Type) := Calls → Outcome α

/-- A function that an operation calls with an object of this library. -/
abbrev Callback := Value → Build Value

namespace Build

variable {α β : Type}

@[ext]
theorem ext {x y : Build α} (h : ∀ calls, x calls = y calls) :
  x = y
  := funext h

/-- Runs `f` on the value of `x`, after the changes of `x`. -/
def bind (x : Build α) (f : α → Build β) : Build β := fun calls =>
  let o := x calls
  match o.result with
  | .error fault => o.andThen (.of (.error fault))
  | .ok a => o.andThen (f a (calls.after o.changes))

instance : Monad Build where
  pure a _ := .of (.ok a)
  bind := bind

/-- A computation without warnings. -/
def ofExcept (x : Except Fault α) : Build α := fun _ => .of x

/-- Fails without a warning. -/
def fail (fault : Fault) : Build α := ofExcept (.error fault)

/-- Reports one warning. -/
def warn : Build Unit := fun _ => ⟨1, [], .ok ()⟩

/-- Changes a list or dictionary in place; one that has just been made is held by nothing that
could show it. -/
def change (identity : Identity) (contents : Value) : Build Unit := fun _ =>
  match identity with
  | .known number => ⟨0, [⟨number, contents⟩], .ok ()⟩
  | _ => .of (.ok ())

/-- Calls a value with an argument. -/
def call (f : Value) : Callback := fun argument calls => calls [] f argument

/-- What a computation comes to, whether or not it fails, with the changes that it makes. -/
def observe (x : Build α) : Build (Except Fault α × List Change) := fun calls =>
  let o := x calls
  { o with result := .ok (o.result, o.changes) }

instance : MonadLift (Except Fault) Build := ⟨ofExcept⟩

@[simp]
theorem pure_apply (a : α) (calls : Calls) :
  (pure a : Build α) calls = .of (.ok a)
  := rfl

@[simp]
theorem bind_ok {x : Build α} {calls : Calls} {a : α} (h : x calls = .of (.ok a))
    (f : α → Build β) :
  (x >>= f) calls = f a calls
  := by
  change bind x f calls = f a calls
  simp [bind, h, Outcome.of, Outcome.andThen]

theorem result_bind (x : Build α) (f : α → Build β) (calls : Calls) :
  ((x >>= f) calls).result =
    (x calls).result.bind fun a => (f a (calls.after (x calls).changes)).result
  := by
  change (bind x f calls).result = _
  unfold bind
  cases h : (x calls).result <;> simp [h] <;> rfl

@[simp]
theorem liftM_ok (a : α) :
  (liftM (Except.ok a : Except Fault α) : Build α) = pure a
  := rfl

theorem bind_pure (x : Build α) :
  x.bind pure = x
  := by
  funext calls
  unfold bind
  obtain ⟨w, c, r⟩ := x calls
  cases r <;> simp [Outcome.andThen, Outcome.of]

theorem pure_bind (a : α) (f : α → Build β) :
  bind (pure a) f = f a
  := by
  funext calls
  simp [bind, Outcome.of, Outcome.andThen]

theorem bind_assoc {γ : Type} (x : Build α) (f : α → Build β) (g : β → Build γ) :
  (x.bind f).bind g = x.bind fun a => (f a).bind g
  := by
  funext calls
  unfold bind
  obtain ⟨w, c, r⟩ := x calls
  cases r with
  | error fault => simp [Outcome.andThen, Outcome.of]
  | ok a =>
    cases h : (f a (calls.after c)).result <;>
      simp [h, Outcome.andThen, Outcome.of, Nat.add_assoc, Calls.after_after]

instance : LawfulMonad Build :=
  LawfulMonad.mk' Build (fun x => bind_pure x) (fun a f => pure_bind a f)
    (fun x f g => bind_assoc x f g)

end Build

end SearchDsl
