import SearchDsl.Script.Eval
import SearchDsl.Value.Depth

/-!
# Answers

The answer of a step is the text of its value as compact JSON.  Values that JSON does not
have are objects with one marked name, and an object of this library is shown with what
it builds; when that fails, so does the answer.

The depth of what an object builds is less than that of the object, so the depth of a value
is fuel enough to write it; what functions answer with may lie deeper.  What holds itself
cannot be written at all.
-/

namespace SearchDsl

namespace Script

/-- A value that JSON does not have, under a marked name. -/
def marked (name : String) (payload : Json) : Json := .obj [(name, payload)]

/-- A text under a marked name. -/
def markedText (name : String) (text : List Char) : Json := marked name (.str (String.ofList text))

/-- An object of this library with what it builds. -/
def built (v : Value) (payload : Json) : Json :=
  .obj [("$builder", .str v.kind), ("build", payload)]

/-- Showing values, with a mark for keys that cannot be written. -/
abbrev Showing := StateT Bool Build

/-- The text of a key; the mark is set where it has none. -/
def showKey (key : Key) : Showing String := do
  if key.written?.isNone then set true
  return key.written?.getD ""

/-- The JSON data that shows a value. -/
def show? : (fuel : Nat) → Value → Showing Json
  | 0, _ => Build.fail .tooDeep
  | fuel + 1, v =>
    let showItems (items : List Value) : Showing Json := do
      return .arr (← items.mapM (show? fuel))
    let showEntries (entries : Dict) : Showing Json := do
      return .obj (← entries.mapM fun e => do return (← showKey e.1, ← show? fuel e.2))
    match v with
    | .null => return .null
    | .bool b => return .bool b
    | .int n => return .int n
    | .float x => return .float x
    | .str s => return .str s
    | .decimal d => return markedText "$decimal" d.text
    | .date d => return markedText "$date" d.iso
    | .dateTime t => return markedText "$datetime" t.iso
    | .uuid u => return markedText "$uuid" u.text
    | .bytes octets => return markedText "$bytes" (octetsHex octets)
    | .foreign name _ _ => return marked "$opaque" (.str name)
    | .function _ _ _ _ | .encoding _ _ | .scoreFunction _ _ | .held _ => Build.fail .wrongType
    | .list items _ => showItems items
    | .tuple items => showItems items
    | .dict entries _ => showEntries entries
    | .query name params => do
      return marked "$Q" (← show? fuel (← Search.queryDictionary name params))
    | .search parts indices => do
      let body ← show? fuel (← Search.bodyDictionary parts)
      let names ← match indices with
        | none => pure .null
        | some names => showItems names
      return .obj [("$search", body), ("index", names)]
    | .action a => return marked "$action" (.str a.word)
    | .operation act header body => do
      return marked "$operation" (← showItems [act, header, body])
    | .clauses => return .obj [("$builder", .str v.kind)]
    | .bulk operations lineEncoding _ => do
      return built v (← showItems (← Bulk.lines ⟨operations, lineEncoding⟩))
    | .multiSearch searches lineEncoding _ => do
      return built v (← showItems (← MultiSearch.lines ⟨searches, lineEncoding⟩))
    | v => do return built v (← show? fuel (← MultiSearch.resolve v))

/-- How much deeper than an object what functions answer with for it may lie. -/
def answerDepth : Nat := 10000

/-- The text that shows a value, where all keys in it can be written. -/
def text (v : Value) : Build String := do
  let (json, marked) ← (show? (v.depth + answerDepth) v).run false
  if marked then Build.fail .wrongType
  return json.compact

/-- The answer of a step. -/
structure Answer where
  result : Except Fault String
  warnings : Nat

/-- What a script has come to after some of its steps. -/
structure Progress where
  /-- What its names denote. -/
  env : Env
  memory : Memory

/-- What a script has come to before its first step. -/
def Progress.initial : Progress := ⟨.initial, .empty⟩

/-- Shows the value of a step as it is by now. -/
def showValue (env : Env) (v : Value) : Run String := do
  let v ← Run.current v
  if (← get).memory.holdsItself v then throw .tooDeep
  Run.perform (callIn env) (text v)

/-- The answer of a step and what the script has come to after it.  The value is named also when
it cannot be shown. -/
def Step.run (progress : Progress) (step : Step) : Answer × Progress :=
  match (step.expr.value progress.env).run ⟨0, progress.memory⟩ with
  | (.error fault, session) =>
    (⟨.error fault, session.warnings⟩, ⟨progress.env, session.memory⟩)
  | (.ok v, session) =>
    let (result, session) := (showValue progress.env v).run session
    let env :=
      match step.name with
      | none => progress.env
      | some name => progress.env.insert name v
    (⟨result, session.warnings⟩, ⟨env, session.memory⟩)

/-- The answers of some steps. -/
def runFrom (progress : Progress) : List Step → List Answer
  | [] => []
  | step :: steps =>
    let (answer, progress) := step.run progress
    answer :: runFrom progress steps

/-- The answers of a script. -/
def run (steps : List Step) : List Answer := runFrom .initial steps

end Script

end SearchDsl
