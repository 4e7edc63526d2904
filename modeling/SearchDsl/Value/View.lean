import SearchDsl.Build
import SearchDsl.Key

/-!
# Views of values

What an operation takes out of a value it is given: a key to file under, the items in
order, the entries of a dictionary.  A view that a value does not offer is a fault, and
the two ways to ask for entries differ in it: `Value.mapping` copies entries and finds
the kind wrong, `Value.get` asks for an operation on them and finds it lacking, in the way
that `Value.lacking` tells.

A query object answers for its parameters under their names, and what it hands out of them
answers for its entries in the same way (`Value.attribute?`).  So it may happen that an
operation is asked of one that has a function under the name of the operation, and then
the function is called.
-/

namespace SearchDsl

namespace Value

mutual

/-- The value may be a key. -/
def hashable : Value → Bool
  | .list _ _ => false
  | .dict _ _ => false
  | .held _ => false
  | .query _ _ => false
  | .scoreFunction _ _ => false
  | .search _ _ => false
  | .decimal (.notANumber _ signalling _) => !signalling
  | .tuple items => allHashable items
  | .operation act header body => act.hashable && header.hashable && body.hashable
  | _ => true

/-- All items may be keys. -/
def allHashable : List Value → Bool
  | [] => true
  | item :: items => item.hashable && allHashable items

end

/-- The key that a value is. -/
def key? (v : Value) : Option Key :=
  match v with
  | .null => some .null
  | .bool b => some (.bool b)
  | .int n => some (.int n)
  | .float x => some (.float x)
  | .str s => some (.text s)
  | .action a => some (.action a)
  | v => if v.hashable then some (.object v) else none

/-- The key that a value is; no other value can be one. -/
def key (v : Value) : Except Fault Key :=
  match v.key? with
  | some k => .ok k
  | none => .error .wrongType

/-! ### What query objects hand out -/

/-- What is handed out of a value: of a list or a dictionary something that answers for it. -/
def handedOut : Value → Value
  | .list items identity => .held (.list items identity)
  | .dict entries identity => .held (.dict entries identity)
  | v => v

/-- The name under which a dictionary that was handed out looks an entry up. -/
def heldName : Name → Name
  | .text "from_" => .text "from"
  | name => name

/-- The entries that a dictionary with the given entries answers with when it was handed out. -/
def heldEntries (entries : Dict) : Except Fault Dict :=
  entries.mapM fun e =>
    match Entries.find? (heldName e.1.name) entries with
    | some v => .ok (e.1, v.handedOut)
    | none => .error .missingKey

/-- The parameter of a query object or a score function with the given name, unless null, or
what was handed out under that name. -/
def attribute? (v : Value) (name : String) : Option Value :=
  match v with
  | .query _ params | .scoreFunction _ params =>
    (Entries.find? name params).filter fun v => !v.isNull
  | .held (.dict entries _) => (Entries.find? (heldName name) entries).map handedOut
  | _ => none

/-- What a value answers with under the given name is a function, which takes one argument and
so cannot answer for an operation without any. -/
def holdsFunction (v : Value) (operation : String) : Bool :=
  match v.attribute? operation with
  | some (.function _ _ _ _) => true
  | _ => false

/-- The fault of asking a value for an operation that it does not have, where what it answers
with under the name of the operation cannot be called so. -/
def lacking (v : Value) (operation : String) : Fault :=
  if (v.attribute? operation).isSome then .wrongType else .noSuchMember

/-- Calls what a value answers with under the name of an operation. -/
def ask (v : Value) (operation : String) (argument : Value) : Build Value :=
  match v.attribute? operation with
  | some f => Build.call f argument
  | none => .fail .noSuchMember

/-! ### Items and entries -/

/-- The characters of a text, as texts. -/
def characters (s : String) : List Value := s.toList.map fun c => .str (String.singleton c)

/-- The keys of some entries. -/
def keysOf (entries : Dict) : List Value := entries.map fun e => e.1.toValue

/-- The items of a value in order: characters of a text, keys of a dictionary.  Those of a
search are its hits, which are not at hand. -/
def items : Value → Except Fault (List Value)
  | .list items _ => .ok items
  | .tuple items => .ok items
  | .str s => .ok (characters s)
  | .action a => .ok (characters a.word)
  | .dict entries _ => .ok (keysOf entries)
  | .held (.dict entries _) => .ok (keysOf entries)
  | .held (.list items _) => .ok (items.map handedOut)
  | .bytes octets => .ok (octets.map fun b => .int b.toNat)
  | .search _ _ => .error .missingKey
  | _ => .error .wrongType

/-- The items of a value as a list. -/
def toList (v : Value) : Except Fault Value := do
  return .list (← v.items)

/-- The items of a value as a list; a text stays as it is. -/
def listOrText : Value → Except Fault Value
  | .str s => .ok (.str s)
  | .action a => .ok (.action a)
  | v => v.toList

/-- The entries of a dictionary, to be copied. -/
def mapping : Value → Except Fault Dict
  | .dict entries _ => .ok entries
  | .held (.dict entries _) => heldEntries entries
  | _ => .error .wrongType

/-- The entries of a dictionary, to be gone through. -/
def entries : Value → Except Fault Dict
  | .dict entries _ => .ok entries
  | .held (.dict entries _) => .ok entries
  | v => .error (v.lacking "items")

/-- What a dictionary has under a key, or null; another value is asked for it. -/
def get (v key : Value) : Build Value :=
  match v with
  | .dict entries _ => do return (Entries.find? (← key.key).name entries).getD .null
  | v => v.ask "get" key

/-- What a dictionary has under a key. -/
def entryAt (v key : Value) : Except Fault Value :=
  match v with
  | .dict entries _ => do found (Entries.find? (← key.key).name entries)
  | .held (.dict entries _) => do
    handedOut <$> found (Entries.find? (heldName (← key.key).name) entries)
  | _ => .error .wrongType
where
  /-- A missing entry is a fault. -/
  found : Option Value → Except Fault Value
    | some v => .ok v
    | none => .error .missingKey

/-- The entry that a pair of a key and a value denotes. -/
def entry (v : Value) : Except Fault (Key × Value) := do
  match ← v.items with
  | [key, value] => return (← key.key, value)
  | _ => .error .badValue

/-- The entries of a dictionary, or those that a sequence of pairs denotes. -/
def toEntries : Value → Except Fault Dict
  | .dict entries _ => .ok entries
  | .held (.dict entries _) => heldEntries entries
  | v => do return Entries.ofPairs (← (← v.items).mapM entry)

/-- The dictionary with the entries of a value. -/
def toDict (v : Value) : Except Fault Value := do
  return .dict (← v.toEntries)

/-- The dictionary with the entries of `start` and then those of `v`. -/
def extend (start : Dict) (v : Value) : Except Fault Value := do
  return .dict (start.merge (← v.mapping))

/-- The dictionary with the entries of `start` and then those of `options`, which may be
any value that is false as a condition instead. -/
def withOptions (start : Dict) (options : Value) : Except Fault Value :=
  extend start options.orEmpty

/-! ### Recognised options -/

/-- The entry of `name` where its value is true as a condition. -/
def whenTrue (v : Value) (name : String) : Build Dict := do
  if (← v.get (.str name)).truthy then return [(.text name, ← v.entryAt (.str name))]
  else return []

/-- The entry of `name` where its value is not null. -/
def whenPresent (v : Value) (name : String) : Build Dict := do
  if (← v.get (.str name)).isNull then return []
  else return [(.text name, ← v.entryAt (.str name))]

@[simp]
theorem get_dict (es : Dict) (i : Identity) (name : String) :
  (Value.dict es i).get (.str name) = pure ((es.find? name).getD .null)
  := rfl

end Value

namespace Entries

/-- The value filed under `name`, or null. -/
def get (es : Dict) (name : Name) : Value := (es.find? name).getD .null

end Entries

end SearchDsl
