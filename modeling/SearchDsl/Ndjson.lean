import SearchDsl.Serializer
import SearchDsl.Value.Literal

/-!
# Newline-delimited JSON

A payload is one line of text for each value, joined by line breaks, with a line break at
the end; without values it is the line break alone.  A value that its serializer cannot
encode is a fault that shows the value; where the value cannot be shown, that is the fault.

What encodes a line may answer with something that is no text.  That is no fault of the
line, but such lines cannot be joined.
-/

namespace SearchDsl

/-- The fault of encoding is one of the line: it could not be encoded, or its kind or what it
denotes was wrong. -/
def Fault.isOfLine : Fault → Bool
  | .wrongType | .badValue | .malformedText | .unencodable => true
  | _ => false

namespace Build

variable {α : Type}

/-- A computation with its fault replaced. -/
def mapFault (f : Fault → Fault) (x : Build α) : Build α := fun calls =>
  let o := x calls
  { o with result := o.result.mapError f }

end Build

namespace Ndjson

/-- The fault of a value that cannot be encoded: it shows the value, unless that fails. -/
def refusal (v : Value) : Fault :=
  match v.shown with
  | .ok text => .unwritable text
  | .error fault => fault

/-- One line: what the serializer answers, decoded.  A fault of the line is reported with it, and
others as they are. -/
def line (s : Serializer) (v : Value) : Build Value := do
  let report (fault : Fault) : Fault := if fault.isOfLine then refusal v else fault
  match ← (s.encode v).mapFault report with
  | .text t => return .str t
  | .octets octets =>
    match decodeUtf8? octets with
    | some t => return .str t
    | none => .fail .malformedText
  | .other answer => return answer

/-- The text of a line that is to be joined with others. -/
def lineText (line : Value) : Except Fault String :=
  match line.text? with
  | some t => .ok t
  | none => .error .wrongType

/-- The lines joined by line breaks. -/
def joined (lines : List String) : String := "\n".intercalate lines ++ "\n"

/-- The payload of some values; the first value without a line decides the fault. -/
def render (s : Serializer) (values : List Value) : Build String := do
  let lines ← values.mapM (line s)
  let texts : Except Fault (List String) := lines.mapM lineText
  return joined (← texts)

/-- The payload of the items of a value. -/
def renderItems (s : Serializer) (values : Value) : Build String := do
  render s (← values.items)

end Ndjson

end SearchDsl
