import SearchDsl.Ndjson
import SearchDsl.State

/-!
# Bulk requests

A bulk request is a sequence of operations on documents.  An operation takes the line of
its action with the header and, unless it deletes, the line of its body.  For an update
header and body come from one dictionary, which is split by name.
-/

namespace SearchDsl

/-- A bulk operation.  It may be made with anything as its action. -/
structure Operation where
  action : Value
  header : Value
  body : Value

namespace Operation

/-- The operation as a value. -/
def toValue (o : Operation) : Value := .operation o.action o.header o.body

/-- Every operation but a deletion has a body. -/
def hasBody (o : Operation) : Bool :=
  match o.action with
  | .action .delete => false
  | _ => true

/-- The line of the action.  A query object stands for the action that its parameter names. -/
def actionLine (o : Operation) : Except Fault Value :=
  match o.action with
  | .action a => .ok (.single a.word o.header)
  | act =>
    match act.attribute? "value" with
    | some word => do return .single (← word.key) o.header
    | none => .error .noSuchMember

/-- The lines of an operation. -/
def lines (o : Operation) : Except Fault (List Value) := do
  let first ← o.actionLine
  return if o.hasBody then [first, o.body] else [first]

/-- The names of an update that belong to its body, in the order of the body. -/
def bodyNames : List String := ["doc", "script", "upsert", "doc_as_upsert"]

/-- The header of an update. -/
def updateHeader (given : Dict) : Dict := given.erase (bodyNames.map .text)

/-- The body of an update; what is null is left out. -/
def updateBody (given : Value) : Build Dict := do
  return (← bodyNames.mapM given.whenPresent).flatten

/-- The update that one dictionary describes. -/
def forUpdate (given : Value) : Build Operation := do
  let header := updateHeader (← given.entries)
  return ⟨.action .update, .dict header, .dict (← updateBody given)⟩

end Operation

/-- A bulk request under construction. -/
structure Bulk where
  operations : List Value
  /-- The encoding of the lines. -/
  encoding : Value

namespace Bulk

/-- A change of a bulk request: one more operation. -/
inductive Step where
  | index (doc header : Value)
  | create (doc header : Value)
  | update (given : Value)
  | delete (header : Value)

/-- The bulk request without operations. -/
def new (encoding : Value) : Bulk := ⟨[], encoding⟩

/-- The bulk request as a value. -/
def toValue (b : Bulk) : Value := .bulk b.operations b.encoding

/-- The operation of a step. -/
def Step.operation : Step → Build Operation
  | .index doc header => do return ⟨.action .index, ← header.orEmpty.toDict, doc⟩
  | .create doc header => do return ⟨.action .create, ← header.orEmpty.toDict, doc⟩
  | .update given => Operation.forUpdate given
  | .delete header => do return ⟨.action .delete, ← header.toDict, .null⟩

/-- The bulk request after a step. -/
def apply (b : Bulk) (step : Step) : Build Bulk := do
  return ⟨b.operations ++ [(← step.operation).toValue], b.encoding⟩

/-- The bulk request after some steps. -/
def run (b : Bulk) (steps : List Step) : Build Bulk := steps.foldlM apply b

/-- The lines of a value that stands for an operation. -/
def linesOf : Value → Except Fault (List Value)
  | .operation act header body => Operation.lines ⟨act, header, body⟩
  | v => .error (v.lacking "lines")

/-- The lines of all operations, as copies. -/
def lines (b : Bulk) : Except Fault (List Value) := do
  return (← b.operations.mapM linesOf).flatten.map State.snapshot

/-- The payload of a bulk request. -/
def build (b : Bulk) : Build String := do
  Ndjson.render (Serializer.ofValue b.encoding) (← b.lines)

end Bulk

end SearchDsl
