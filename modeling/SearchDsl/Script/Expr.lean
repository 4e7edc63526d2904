/-!
# Scripts

A script composes requests step by step.  An expression (`Script.Expr`) denotes a value:
it creates objects of this library, calls their operations by name, and writes functions
of one parameter.  Arguments are given by position and, in a dictionary, by name.  A step
(`Script.Step`) is an expression whose value may be given a name.  What expressions denote
is said in `SearchDsl.Script.Eval`; here they are data, so that a function can be a value,
which keeps its body.
-/

namespace SearchDsl

namespace Script

/-- The kinds of constants that are written as text under a mark. -/
inductive Mark where
  | float
  | dateTime
  | date
  | decimal
  | uuid
  | bytes
  | foreign
  | encoding
  deriving DecidableEq

/-- An expression. -/
inductive Expr where
  | null
  | bool (b : Bool)
  | int (n : Int)
  | float (x : Float)
  | str (s : String)
  /-- A constant of another kind, in its notation. -/
  | marked (mark : Mark) (text : String)
  /-- What a name denotes. -/
  | ref (name : String)
  | list (items : List Expr)
  | dict (entries : List (String × Expr))
  /-- A query object of the search library. -/
  | query (name : String) (params : Expr)
  /-- A search object of the search library with the given body. -/
  | search (body : Expr)
  /-- A new object, made by the factory of the given name. -/
  | create (factory : String) (args : List Expr) (named : Expr)
  /-- A call of a function on states, fragments and lines. -/
  | invoke (name : String) (args : List Expr) (named : Expr)
  /-- A call of an operation of an object. -/
  | call (receiver : Expr) (method : String) (args : List Expr) (named : Expr)
  /-- A function of one parameter. -/
  | function (param : String) (body : Expr)
  /-- The first value, or the second where the first is false as a condition. -/
  | orElse (first second : Expr)
  | member (subject : Expr) (name : String)
  | item (subject : Expr) (index : Int)

/-- An expression whose value may be given a name for the steps after it. -/
structure Step where
  expr : Expr
  name : Option String

end Script

end SearchDsl
