import SearchDsl.MultiSearch

/-!
# Signatures

A `Signature` names the parameters of an operation: the required ones, the optional ones
with what they stand for when they are not given, those that are given by name alone, and
whether it takes further arguments.  `Signature.bind` assigns arguments to parameters, first
those given by position and then those given by name, and refuses arguments that fit no
parameter, parameters given twice, and required parameters that are not given.
-/

namespace SearchDsl

namespace Script

/-- The parameters of an operation. -/
structure Signature where
  required : List String
  optional : List (String × Value)
  /-- Parameters that are given by name alone, with what they stand for otherwise. -/
  named : List (String × Value) := []
  /-- The other parameters are given by position alone, and have no names. -/
  positional : Bool := false
  /-- Arguments by name that fit no parameter are taken as options. -/
  takesOptions : Bool := false
  /-- Arguments by position beyond the parameters are taken as a list. -/
  takesMore : Bool := false

/-- Arguments assigned to parameters. -/
structure Bound where
  assigned : List (String × Value)
  options : List (String × Value)
  more : List Value

namespace Signature

/-- Required parameters, and optional ones that stand for null. -/
def of (required optional : List String) : Signature :=
  { required, optional := optional.map fun name => (name, .null) }

/-- The names of the parameters in order. -/
def names (s : Signature) : List String := s.required ++ s.optional.map Prod.fst

/-- The names of the parameters that may be given by name, among them that of the object whose
operation is called, which is given already. -/
def nameable (s : Signature) : List String :=
  (if s.positional then [] else "self" :: s.names) ++ s.named.map Prod.fst

/-- Assigns arguments to parameters. -/
def bind (s : Signature) (args : List Value) (named : List (String × Value)) :
    Except Fault Bound :=
  let placed := s.names.zip args
  let isParameter := fun e : String × Value => s.nameable.contains e.1
  let known := named.filter isParameter
  let options := named.filter fun e => !isParameter e
  let assigned := placed ++ known
  if !s.takesMore && s.names.length < args.length then .error .wrongType
  else if known.any fun e => e.1 == "self" || placed.any fun p => p.1 == e.1 then
    .error .wrongType
  else if !s.takesOptions && !options.isEmpty then .error .wrongType
  else if s.required.any fun name => !assigned.any fun e => e.1 == name then .error .wrongType
  else .ok ⟨assigned ++ s.optional ++ s.named, options, args.drop s.names.length⟩

end Signature

/-- The arguments by name that a dictionary holds. -/
def namedArguments (v : Value) : Except Fault (List (String × Value)) :=
  match v with
  | .dict entries _ =>
    if entries.all fun e => e.1.isText then .ok (entries.map fun e => (e.1.word, e.2))
    else .error .wrongType
  | _ => .error .wrongType

namespace Bound

/-- The argument of a parameter. -/
def value (b : Bound) (name : String) : Value := (Entries.find? name b.assigned).getD .null

/-- The argument of a parameter as a function. -/
def callback (b : Bound) (name : String) : Callback := Build.call (b.value name)

/-- The argument of a parameter as a function, unless it is false as a condition. -/
def callback? (b : Bound) (name : String) : Option Callback :=
  if (b.value name).truthy then some (b.callback name) else none

/-- The options as entries. -/
def optionEntries (b : Bound) : Dict := b.options.map fun e => (.text e.1, e.2)

end Bound

/-- An operation with its parameters. -/
structure Form (α : Type) where
  signature : Signature
  make : Bound → α

namespace Form

variable {α β : Type}

/-- The operation with `required` and `optional` parameters. -/
def of (required optional : List String) (make : Bound → α) : Form α :=
  ⟨.of required optional, make⟩

/-- The operation with parameters that are given by position alone. -/
def byPosition (required : List String) (optional : List (String × Value)) (make : Bound → α) :
    Form α :=
  ⟨{ required, optional, positional := true }, make⟩

/-- The operation followed by `f`. -/
def map (f : α → β) (form : Form α) : Form β := ⟨form.signature, fun b => f (form.make b)⟩

end Form

/-- An operation of an object, ready to be called. -/
abbrev Method := Form (Build Value)

namespace Method

/-- An operation without parameters. -/
def plain (result : Build Value) : Option Method := some (.of [] [] fun _ => result)

/-- What is not an operation, and cannot be called whatever the arguments are. -/
def uncallable : Option Method :=
  some ⟨{ required := [], optional := [], takesOptions := true, takesMore := true }, fun _ =>
    .fail .wrongType⟩

/-- What asking an object for one of its parts and calling it comes to: a function takes its
argument by position or under the name of its parameter, and nothing else can be called. -/
def ofPart : (part : Value) → Option Method
  | .function param body scope identity =>
    some (.of [param] [] fun b =>
      Build.call (.function param body scope identity) (b.value param))
  | _ => uncallable

end Method

end Script

end SearchDsl
