import SearchDsl.Value.View
import SearchDsl.Calendar.Writer
import SearchDsl.Json.Writer

/-!
# Serializers

A `Serializer` encodes one value as text or octets, or refuses it.  The usual one passes
text and octets on as they are and writes everything else as compact JSON: calendar
values and identifiers as text, decimals as doubles, and no other objects.  A value that
is plain JSON data throughout is never refused.

A function may encode as well, when a query object holds it under the name of the
operation, and it may answer with anything.
-/

namespace SearchDsl

namespace Value

mutual

/-- The JSON data that a value stands for, where `scalar` decides on the values that are not
plain data. -/
def toJson? (scalar : Value → Option Json) : Value → Option Json
  | .null => some .null
  | .bool b => some (.bool b)
  | .int n => some (.int n)
  | .float x => some (.float x)
  | .str s => some (.str s)
  | .action a => some (.str a.word)
  | .list items _ => (itemsToJson? scalar items).map .arr
  | .tuple items => (itemsToJson? scalar items).map .arr
  | .dict entries _ => (entriesToJson? scalar entries).map .obj
  | v => scalar v

/-- The JSON data of every item. -/
def itemsToJson? (scalar : Value → Option Json) : List Value → Option (List Json)
  | [] => some []
  | item :: items => do
    let j ← toJson? scalar item
    let rest ← itemsToJson? scalar items
    some (j :: rest)

/-- The JSON data of every entry. -/
def entriesToJson? (scalar : Value → Option Json) :
    List (Key × Value) → Option (List (String × Json))
  | [] => some []
  | (key, v) :: entries => do
    let name ← key.written?
    let j ← toJson? scalar v
    let rest ← entriesToJson? scalar entries
    some ((name, j) :: rest)

end

/-- The JSON data for the values with a usual notation. -/
def converted? : Value → Option Json
  | .dateTime t => some (.str (String.ofList t.iso))
  | .date d => some (.str (String.ofList d.iso))
  | .uuid u => some (.str (String.ofList u.text))
  | .decimal d => d.toFloat?.map .float
  | _ => none

end Value

/-! ### Order of keys -/

/-- The entries in the order of their keys, where these can be written and are in an order. -/
def Entries.inOrder? : Dict → Option Dict
  | [] => some []
  | [e] => some [e]
  | e :: es =>
    if (e :: es).all (·.1.written?.isSome) &&
        es.all fun other => (e.1.name.before? other.1.name).isSome then
      some (sortKeys (fun k l => (k.name.before? l.name).getD false) (e :: es))
    else none

namespace Value

mutual

/-- A value with all dictionaries in it in the order of their keys. -/
def inOrder? : Value → Option Value
  | .list items _ => (itemsInOrder? items).map (.list ·)
  | .tuple items => (itemsInOrder? items).map .tuple
  | .dict entries _ => do return .dict (← Entries.inOrder? (← entriesInOrder? entries))
  | v => some v

/-- Items with all dictionaries in them in the order of their keys. -/
def itemsInOrder? : List Value → Option (List Value)
  | [] => some []
  | item :: items => do return (← inOrder? item) :: (← itemsInOrder? items)

/-- Entries with all dictionaries in their values in the order of their keys. -/
def entriesInOrder? : List (Key × Value) → Option (List (Key × Value))
  | [] => some []
  | (key, v) :: entries => do return (key, ← inOrder? v) :: (← entriesInOrder? entries)

end

end Value

/-- What a serializer answers. -/
inductive Encoded where
  | text (s : String)
  | octets (octets : List UInt8)
  /-- Something that is neither; only a function answers so. -/
  | other (v : Value)

/-- What a value is when a serializer answers with it. -/
def Encoded.ofValue : Value → Encoded
  | .str s => .text s
  | .bytes o => .octets o
  | v => .other v

/-- Encodes one value. -/
structure Serializer where
  encode : Value → Build Encoded

namespace Serializer

/-- The text of a value as JSON data, or a refusal where it stands for none. -/
def ofJson (write : Json → List Char) (refusal : Fault) (data : Option Json) :
    Except Fault Encoded :=
  match data with
  | some j => .ok (.text (String.ofList (write j)))
  | none => .error refusal

/-- Compact JSON with the usual conversions; text and octets pass. -/
def compact : Serializer where
  encode
    | .str s => pure (.text s)
    | .action a => pure (.text a.word)
    | .bytes o => pure (.octets o)
    | v => ofJson (Json.chars .compact) .unencodable (v.toJson? Value.converted?)

/-- JSON with blanks and sorted keys, of plain data alone. -/
def sorted : Serializer where
  encode v := ofJson (Json.chars .spaced) .wrongType (v.inOrder?.bind (Value.toJson? fun _ => none))

/-- Refuses every value for the same cause. -/
def refusing (cause : Fault) : Serializer where
  encode _ := .fail cause

/-- Asks a value that is no serializer to encode. -/
def asking (v : Value) : Serializer where
  encode line := do return Encoded.ofValue (← v.ask "dumps" line)

/-- The serializer of an encoding. -/
def ofEncoding : Encoding → Serializer
  | .compact => compact
  | .sorted => sorted
  | .refusing cause => refusing cause

/-- The serializer that a value stands for: the usual one when the value is false as a
condition. -/
def ofValue (v : Value) : Serializer :=
  if v.truthy then
    match v with
    | .encoding e _ => ofEncoding e
    | v => asking v
  else compact

end Serializer

end SearchDsl
