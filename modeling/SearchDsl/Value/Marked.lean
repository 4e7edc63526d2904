import SearchDsl.Value.Basic
import SearchDsl.Calendar.Reader

/-!
# Marked constants

The values that JSON does not have are written as texts under a mark.  `Value.ofMarked`
is the value that a text denotes under a mark; a text that denotes none is a fault.
-/

namespace SearchDsl

/-- The infinite and undefined doubles. -/
def floatOfWord? : String → Option Float
  | "nan" => some (0.0 / 0.0)
  | "inf" => some (1.0 / 0.0)
  | "-inf" => some (-1.0 / 0.0)
  | _ => none

/-- The encodings by name. -/
def Encoding.ofWord? : String → Option Encoding
  | "default" => some .compact
  | "pretty" => some .sorted
  | "type_error" => some (.refusing .wrongType)
  | "value_error" => some (.refusing .badValue)
  | "key_error" => some (.refusing .missingKey)
  | _ => none

/-- The value that was read, or the fault of a text that denotes none. -/
def Value.ofRead {α : Type} (make : α → Value) (fault : Fault) : Option α → Except Fault Value
  | some x => .ok (make x)
  | none => .error fault

/-- The value that a text denotes under a mark. -/
def Value.ofMarked (mark : Script.Mark) (text : String) : Except Fault Value :=
  match mark with
  | .float => ofRead .float .badValue (floatOfWord? text)
  | .dateTime => ofRead .dateTime .badValue (DateTime.parse text)
  | .date => ofRead .date .badValue (Date.parse text)
  | .decimal => ofRead .decimal .notDecimal (Decimal.Exact.parse text)
  | .uuid => ofRead .uuid .badValue (Uuid.parse text)
  | .bytes => ofRead .bytes .badValue (parseOctets text.toList)
  | .foreign => .ok (.foreign text)
  | .encoding => ofRead (.encoding ·) .badValue (Encoding.ofWord? text)

end SearchDsl
