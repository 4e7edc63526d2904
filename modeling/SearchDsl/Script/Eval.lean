import SearchDsl.Script.Factory
import SearchDsl.Script.Memory
import SearchDsl.Value.Marked

/-!
# Evaluation

`Expr.eval call scope e` is what the expression `e` denotes where `scope` says what its
names denote and `call` what calling a value comes to in a memory.  Parts are evaluated from
left to right and each once, an operation is looked up after its arguments are evaluated,
and the first fault ends the evaluation.  What an operation makes is new, and is given
numbers before anything else happens; what it is given is seen after all changes so far.

A function is a value that keeps its body.  The names in it denote what the script gives
them when the function is called, so that a function follows the steps that give a name
another value; but a function that a call of another one makes keeps the names of that
call.  Calling a function evaluates the body, in which other functions may be called, and
so on to a depth of `deepest` calls (`callWithin`).  Calling anything else is a fault.
-/

namespace SearchDsl

namespace Script

/-- What names denote. -/
abbrev Env := Entries String Value

/-- The names that every script starts with. -/
def Env.initial : Env := [("clause_builder", .clauses)]

/-- Where names are looked up. -/
inductive Scope where
  /-- Among the names of the script. -/
  | script (env : Env)
  /-- Among the names of a call of a function. -/
  | call (env : Env)

/-- What names denote. -/
def Scope.env : Scope → Env
  | .script env => env
  | .call env => env

/-- What the names in a function that is made here keep denoting. -/
def Scope.kept : Scope → Option Env
  | .script _ => none
  | .call env => some env

/-- Calls an operation, if there is one, with some arguments. -/
def applyMethod (method : Option Method) (args : List Value) (named : Value) : Build Value :=
  match method with
  | none => .fail .noSuchMember
  | some form => do form.make (← form.signature.bind args (← namedArguments named))

namespace Run

/-- Performs an operation that makes a value. -/
def make (call : Memory → Calls) (operation : Build Value) : Run Value := do
  adopt (← current (← perform call operation))

/-- Calls an operation, if there is one, with what some arguments are by now. -/
def apply (call : Memory → Calls) (method : Option Method) (args : List Value) (named : Value) :
    Run Value := do
  make call (applyMethod method (← args.mapM current) (← current named))

end Run

namespace Expr

mutual

/-- What an expression denotes. -/
def eval (call : Memory → Calls) (scope : Scope) : Expr → Run Value
  | .null => return .null
  | .bool b => return .bool b
  | .int n => return .int n
  | .float x => return .float x
  | .str s => return .str s
  | .marked mark text => do Run.adopt (← ExceptT.mk (pure (Value.ofMarked mark text)))
  | .ref name =>
    match scope.env.find? name with
    | some v => Run.current v
    | none => throw .missingKey
  | .list items => do Run.adopt (.list (← evalList call scope items))
  | .dict entries => do
    let entries ← evalEntries call scope entries
    Run.adopt (.dict (entries.map fun e => (.text e.1, e.2)))
  | .query name params => do
    let params ← eval call scope params
    Run.make call (Search.ofKind name params)
  | .search body => do
    let body ← eval call scope body
    Run.make call (Search.ofBody body none)
  | .create factory args named => do
    let args ← evalList call scope args
    let named ← eval call scope named
    Run.apply call (factory? factory) args named
  | .invoke name args named => do
    let args ← evalList call scope args
    let named ← eval call scope named
    Run.apply call (function? name) args named
  | .call receiver method args named => do
    let receiver ← eval call scope receiver
    let args ← evalList call scope args
    let named ← eval call scope named
    Run.apply call ((← Run.current receiver).method? method) args named
  | .function param body => Run.adopt (.function param body scope.kept)
  | .orElse first second => do
    let v ← eval call scope first
    if v.truthy then return v else eval call scope second
  | .member subject name => do
    let subject ← eval call scope subject
    Run.make call (Script.member subject name)
  | .item subject index => do
    let subject ← eval call scope subject
    Run.make call (Script.item subject index)

/-- What expressions denote, in order. -/
def evalList (call : Memory → Calls) (scope : Scope) : List Expr → Run (List Value)
  | [] => return []
  | e :: es => do
    let v ← eval call scope e
    return v :: (← evalList call scope es)

/-- What named expressions denote, in order. -/
def evalEntries (call : Memory → Calls) (scope : Scope) :
    List (String × Expr) → Run (List (String × Value))
  | [] => return []
  | (name, e) :: es => do
    let v ← eval call scope e
    return (name, v) :: (← evalEntries call scope es)

end

end Expr

/-- What calling a value comes to in a script with the given names, where calls may be nested to
the given depth. -/
def callWithin (env : Env) : (depth : Nat) → Memory → Calls
  | 0, _, _, .function _ _ _ _, _ => .of (.error .tooDeep)
  | depth + 1, memory, earlier, .function param body kept _, argument =>
    let memory := memory.commitAll earlier
    let (argument, inner) := memory.inside.adopt (memory.current argument)
    let scope := Scope.call (Entries.insert param argument (kept.getD env))
    let (result, session) := (body.eval (callWithin env depth) scope).run ⟨0, inner⟩
    Run.outcome memory session result
  | _, _, _, _, _ => .of (.error .wrongType)

/-- The depth to which calls may be nested. -/
def deepest : Nat := 20000

/-- What calling a value comes to in a script with the given names. -/
def callIn (env : Env) : Memory → Calls := callWithin env deepest

/-- What an expression denotes in a script with the given names. -/
def Expr.value (env : Env) (e : Expr) : Run Value := e.eval (callIn env) (.script env)

end Script

end SearchDsl
