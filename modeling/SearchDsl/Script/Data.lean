import SearchDsl.Script.Signature
import SearchDsl.Value.Extreme
import SearchDsl.Value.Sequence

/-!
# Operations of plain data

The operations that plain data offers under a name.  Texts, octets and sequences tell where
something stands in them (`index`), and lists and dictionaries are changed in place: the
change is reported (`Build.change`) and seen wherever they are held.  A change that fails on
the way leaves what was done until then.

What a query object hands out has the operations of what it was handed out of where that is
a list; a dictionary that was handed out answers with its entries instead.
-/

namespace SearchDsl

namespace Script

/-! ### Finding -/

/-- A place that was found as a number. -/
def foundAt : Option Nat → Except Fault Value
  | some n => .ok (.int n)
  | none => .error .badValue

/-- A bound that may be null for none. -/
def bound? (v : Value) : Except Fault (Option Int) :=
  if v.isNull then .ok none else some <$> v.toInt

/-- The part of a text that a value is. -/
def textPart (v : Value) : Except Fault (List Char) :=
  match v.text? with
  | some part => .ok part.toList
  | none => .error .wrongType

/-- The part of octets that a value is, or the single one that it counts. -/
def octetPart (v : Value) : Except Fault (List UInt8) :=
  match v with
  | .bytes part => .ok part
  | v => do
    let n ← v.toInt
    if n < 0 || 255 < n then .error .badValue
    return [UInt8.ofNat n.toNat]

/-- An operation that looks for a part of some characters or octets; the bounds may be null. -/
def seekMethod {α : Type} (partOf : Value → Except Fault (List α))
    (seek : List α → Sequence.Bounds → Except Fault Value) : Option Method :=
  some (.byPosition ["part"] [("start", .null), ("stop", .null)] fun b => do
    let start ← bound? (b.value "start")
    let stop ← bound? (b.value "stop")
    seek (← partOf (b.value "part")) ⟨start.getD 0, stop⟩)

/-- The operations of some characters or octets. -/
def partsMethod? {α : Type} [BEq α] (partOf : Value → Except Fault (List α)) (items : List α)
    (name : String) : Option Method :=
  match name with
  | "index" => seekMethod partOf fun part b => foundAt (Sequence.find? part b items)
  | "count" => seekMethod partOf fun part b => .ok (.int (Sequence.count part b items))
  | _ => none

/-- How many items are the same as a value. -/
def count (items : List Value) (v : Value) : Except Fault Nat := do
  return (← items.filterM fun item => item.same v).length

/-- The operations of a sequence that do not change it. -/
def sequenceMethod? (items : List Value) (name : String) : Option Method :=
  match name with
  | "index" =>
    some (.byPosition ["item"] [("start", .int 0), ("stop", .int items.length)] fun b => do
      let start ← (b.value "start").toInt
      let stop ← (b.value "stop").toInt
      foundAt (← Sequence.findSame? (b.value "item") ⟨start, some stop⟩ items))
  | "count" => some (.byPosition ["item"] [] fun b => do
      return .int (← count items (b.value "item")))
  | _ => none

/-! ### Lists -/

/-- The items with one of them taken out. -/
def takeOut (items : List Value) (position : Int) : Except Fault (Value × List Value) := do
  let item ← Sequence.itemAt items position
  return (item, items.eraseIdx (Sequence.place items.length position))

/-- Changes a list in place. -/
def changeList (identity : Identity) (items : List Value) : Build Value := do
  Build.change identity (.list items identity)
  return .null

/-- Something was put into a list. -/
def fills (identity : Identity) (c : Change) : Bool :=
  match c.contents with
  | .list (_ :: _) _ => identity == .known c.number
  | _ => false

/-- Sorts a list in place, by what a function makes of its items where there is one.  The list is
empty while the function is called, and may not be filled by it. -/
def sortList (items : List Value) (identity : Identity) (key : Value) (downwards : Bool) :
    Build Value := do
  let _ ← changeList identity []
  let keysOf : Build (List Value) :=
    if key.isNull then return items else items.mapM (Build.call key)
  match ← keysOf.observe with
  | (.error fault, _) => do
    let _ ← changeList identity items
    .fail fault
  | (.ok keys, changes) => do
    let arranged := Arranged.sort (fun a b => Value.less a.1 b.1) downwards (keys.zip items)
    let done ← changeList identity (arranged.items.map Prod.snd)
    match arranged.fault? with
    | some fault => .fail fault
    | none => if changes.any (fills identity) then .fail .badValue else return done

/-- The operations of a list. -/
def listMethod? (items : List Value) (identity : Identity) (name : String) : Option Method :=
  let change := changeList identity
  match name with
  | "copy" => Method.plain (pure (.list items))
  | "append" => some (.byPosition ["item"] [] fun b => change (items ++ [b.value "item"]))
  | "extend" => some (.byPosition ["items"] [] fun b => do
      change (items ++ (← (b.value "items").items)))
  | "insert" => some (.byPosition ["position", "item"] [] fun b => do
      let place := Sequence.place items.length (← (b.value "position").toInt)
      change (items.take place ++ b.value "item" :: items.drop place))
  | "pop" => some (.byPosition [] [("position", .int (-1))] fun b => do
      let (item, rest) ← takeOut items (← (b.value "position").toInt)
      let _ ← change rest
      return item)
  | "remove" => some (.byPosition ["item"] [] fun b => do
      match ← Sequence.findSame? (b.value "item") ⟨0, none⟩ items with
      | some place => change (items.eraseIdx place)
      | none => .fail .badValue)
  | "clear" => Method.plain (change [])
  | "reverse" => Method.plain (change items.reverse)
  | "sort" =>
    let named := [("key", .null), ("reverse", .bool false)]
    some ⟨{ required := [], optional := [], named }, fun b => do
      sortList items identity (b.value "key") ((← (b.value "reverse").toInt) != 0)⟩
  | name => sequenceMethod? items name

/-! ### Dictionaries -/

/-- The entries with those that some pairs denote filed among them, up to a pair that denotes
none. -/
def filePairs (entries : Dict) : List Value → Dict × Option Fault
  | [] => (entries, none)
  | pair :: pairs =>
    match pair.entry with
    | .ok (key, v) => filePairs (entries.insert key v) pairs
    | .error fault => (entries, some fault)

/-- The entries with those of a value filed among them, as far as it denotes some. -/
def fileAll (entries : Dict) : Value → Dict × Option Fault
  | .dict others _ => (entries.merge others, none)
  | .held (.dict others i) =>
    match (Value.held (.dict others i)).toEntries with
    | .ok others => (entries.merge others, none)
    | .error fault => (entries, some fault)
  | v =>
    match v.items with
    | .ok pairs => filePairs entries pairs
    | .error fault => (entries, some fault)

/-- What an update of a dictionary does. -/
def updateOf (entries : Dict) (other : Value) (options : Dict) : Dict × Option Fault :=
  match fileAll entries other with
  | (entries, none) => (entries.merge options, none)
  | failed => failed

/-- The operations of a dictionary. -/
def dictMethod? (entries : Dict) (identity : Identity) (name : String) : Option Method :=
  let change (entries : Dict) : Build Unit := Build.change identity (.dict entries identity)
  let found (b : Bound) : Except Fault (Option Value) := do
    return Entries.find? (← (b.value "key").key).name entries
  match name with
  | "get" => some (.byPosition ["key"] [("default", .null)] fun b => do
      return (← found b).getD (b.value "default"))
  | "copy" => Method.plain (pure (.dict entries))
  | "update" =>
    some ⟨{ required := [], optional := [("other", .empty)], positional := true,
            takesOptions := true }, fun b => do
      let (entries, fault?) := updateOf entries (b.value "other") b.optionEntries
      change entries
      match fault? with
      | some fault => .fail fault
      | none => return .null⟩
  | "setdefault" => some (.byPosition ["key"] [("default", .null)] fun b => do
      match ← found b with
      | some v => return v
      | none =>
        change (entries.insert (← (b.value "key").key) (b.value "default"))
        return b.value "default")
  | "pop" => some ⟨{ Signature.of ["key"] [] with positional := true, takesMore := true }, fun b =>
      match b.more with
      | _ :: _ :: _ => .fail .wrongType
      | others => do
        match (← found b).or others.head? with
        | some v =>
          change (entries.erase [(← (b.value "key").key).name])
          return v
        | none => .fail .missingKey⟩
  | "popitem" => Method.plain <|
      match entries.getLast? with
      | some (key, v) => do
        change entries.dropLast
        return .tuple [key.toValue, v]
      | none => .fail .missingKey
  | "clear" => Method.plain do
      change []
      return .null
  | "fromkeys" => some (.byPosition ["keys"] [("value", .null)] fun b => do
      let keys ← (← (b.value "keys").items).mapM fun v => v.key
      return .dict (Entries.ofPairs (keys.map fun key => (key, b.value "value"))))
  | "keys" | "values" | "items" => Method.plain (.fail .wrongType)
  | _ => none

/-- The operations of a dictionary that a query object handed out, and its entries. -/
def heldMethod? (v : Value) (name : String) : Option Method :=
  match name with
  | "to_dict" => Method.plain (Search.written v)
  | "keys" | "items" => Method.plain (.fail .wrongType)
  | name => (v.attribute? name).bind Method.ofPart

/-! ### Other data -/

/-- What encodes lines, asked for one: octets where it writes compact JSON, and else a text. -/
def encoded (e : Encoding) (v : Value) : Build Value := do
  match e, ← (Serializer.ofEncoding e).encode v with
  | .compact, .text s => return .bytes s.toUTF8.toList
  | _, .text s => return .str s
  | _, .octets o => return .bytes o
  | _, .other v => return v

/-- The greater of a decimal and another one, or the lesser; there is nothing else to be said
about how. -/
def extremeMethod (greater : Bool) (d : Decimal.Exact) : Option Method :=
  some (.of ["other"] ["context"] fun b => do
    let other ← (b.value "other").toDecimal
    if !(b.value "context").isNull then .fail .wrongType
    return .decimal (← d.extreme greater other))

/-- The operations of plain data, and the members of a date and an identifier, which are none. -/
def dataMethod? (v : Value) (name : String) : Option Method :=
  match v, name with
  | .action _, "value" | .action _, "name" => Method.uncallable
  | .str s, name => partsMethod? textPart s.toList name
  | .action a, name => partsMethod? textPart a.word.toList name
  | .bytes octets, name => partsMethod? octetPart octets name
  | .tuple items, name => sequenceMethod? items name
  | .list items identity, name | .held (.list items identity), name =>
    listMethod? items identity name
  | .dict entries identity, name => dictMethod? entries identity name
  | .held contents, name => heldMethod? (.held contents) name
  | .encoding e _, "dumps" => some (.of ["data"] [] fun b => encoded e (b.value "data"))
  | .decimal d, "max" => extremeMethod true d
  | .decimal d, "min" => extremeMethod false d
  | .date _, "min" | .date _, "max" => Method.uncallable
  | .dateTime _, "min" | .dateTime _, "max" => Method.uncallable
  | .uuid _, "version" => Method.uncallable
  | _, _ => none

end Script

end SearchDsl
