import SearchDsl.Script.Expr
import SearchDsl.Entries
import SearchDsl.Json.Basic

/-!
# Reading scripts

A script is written as JSON data.  Plain data denotes itself, and an object whose only
name starts with a dollar sign is one of the other expressions: `$ref`, `$new`, `$chain`,
`$core`, `$fn`, `$or`, `$get`, and the notations for values that JSON does not have.
Calls on a chain are nested from the left.  A constant keeps its notation, so that a text
that denotes nothing is a fault of its step and not of the script.
-/

namespace SearchDsl

namespace Script

namespace Expr

/-- The kind of constants that a mark stands for. -/
def markOf? : String → Option Mark
  | "$float" => some .float
  | "$datetime" => some .dateTime
  | "$date" => some .date
  | "$decimal" => some .decimal
  | "$uuid" => some .uuid
  | "$bytes" => some .bytes
  | "$opaque" => some .foreign
  | "$serializer" => some .encoding
  | _ => none

/-- The expression with the given mark and text. -/
def ofText? (mark text : String) : Option Expr :=
  if mark = "$ref" then some (.ref text) else (markOf? mark).map fun m => .marked m text

/-- The text of JSON data that is a text. -/
def textOf? : Json → Option String
  | .str s => some s
  | _ => none

/-- The part of an expression that is selected by a name or a position. -/
def selected (subject : Expr) : List Json → Option Expr
  | [.str name] => some (.member subject name)
  | [.int index] => some (.item subject index)
  | _ => none

mutual

/-- The expression that JSON data denotes. -/
def ofJson? : Json → Option Expr
  | .null => some .null
  | .bool b => some (.bool b)
  | .int n => some (.int n)
  | .float x => some (.float x)
  | .str s => some (.str s)
  | .arr items => (ofItems? items).map .list
  | .obj [(name, payload)] =>
    if name = "$search" then (ofJson? payload).map .search
    else if name.startsWith "$" then ofMarked? name payload
    else (ofJson? payload).map fun e => .dict [(name, e)]
  | .obj fields => (ofFields? fields).map .dict

/-- The expression with the given mark. -/
def ofMarked? (mark : String) : Json → Option Expr
  | .str text => ofText? mark text
  | .arr (head :: rest) =>
    match mark with
    | "$chain" => do ofCalls? (← ofJson? head) rest
    | "$new" => do
      let (args, named) ← ofArgs? rest
      return .create (← textOf? head) args named
    | "$core" => do
      let (args, named) ← ofArgs? rest
      return .invoke (← textOf? head) args named
    | "$fn" => do
      match ← ofItems? rest with
      | [body] => return .function (← textOf? head) body
      | _ => none
    | "$or" => do
      match ← ofItems? rest with
      | [second] => return .orElse (← ofJson? head) second
      | _ => none
    | "$get" => do selected (← ofJson? head) rest
    | "$Q" => do
      match ← ofItems? rest with
      | [params] => return .query (← textOf? head) params
      | _ => none
    | _ => none
  | _ => none

/-- The calls of a chain, each on the result of the one before. -/
def ofCalls? (receiver : Expr) : List Json → Option Expr
  | [] => some receiver
  | .arr (method :: args) :: calls => do
    let (args, named) ← ofArgs? args
    ofCalls? (.call receiver (← textOf? method) args named) calls
  | _ :: _ => none

/-- Arguments by position, and the dictionary of those by name that the last one holds. -/
def ofArgs? : List Json → Option (List Expr × Expr)
  | [] => some ([], .dict [])
  | [.obj [("$kw", named)]] => do return ([], ← ofJson? named)
  | arg :: args => do
    let e ← ofJson? arg
    let (rest, named) ← ofArgs? args
    return (e :: rest, named)

/-- The expressions that items denote. -/
def ofItems? : List Json → Option (List Expr)
  | [] => some []
  | j :: items => do
    let e ← ofJson? j
    return e :: (← ofItems? items)

/-- The named expressions that fields denote. -/
def ofFields? : List (String × Json) → Option (List (String × Expr))
  | [] => some []
  | (name, j) :: fields => do
    let e ← ofJson? j
    return (name, e) :: (← ofFields? fields)

end

end Expr

/-- A step, from its expression under `do` and its name under `as`. -/
def Step.ofJson? : Json → Option Step
  | .obj fields => do
    let expr ← Expr.ofJson? (← Entries.find? "do" fields)
    return ⟨expr, (Entries.find? "as" fields).bind Expr.textOf?⟩
  | _ => none

/-- The steps of a script, under `steps`. -/
def ofJson? : Json → Option (List Step)
  | .obj fields =>
    match Entries.find? "steps" fields with
    | some (.arr steps) => steps.mapM Step.ofJson?
    | _ => none
  | _ => none

end Script

end SearchDsl
