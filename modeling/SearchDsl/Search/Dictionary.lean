import SearchDsl.Search.QuerySchema
import SearchDsl.Value.View

/-!
# Dictionaries of objects

A query object is written as the dictionary of its kind with its parameters.  The parts
that it holds are written with it, and so is an object that is itself a parameter, but
whatever lies deeper in a plain parameter stays as it is (`Search.dictionary`).
`Search.written` writes all objects, however deep they lie.

A search object is written as the dictionary of its parts (`Search.bodyDictionary`), most of
which are left out when they are false as a condition.  It keeps its parts as they were
given to it, so that a fault may show only when it is written: vector searches that are
no sequence of them are one.
-/

namespace SearchDsl

namespace Search

/-- A score function with its parameters; those that every kind has are written beside it,
and a boost factor is written as its value. -/
def functionDictionary (kind : String) (params : Dict) : Value :=
  let own := params.erase scoreFunctionOptions
  let function : Dict :=
    if kind = "boost_factor" then ((own.find? "value").map fun v => (.text kind, v)).toList
    else [(kind, .dict own)]
  .dict (function ++ params.select scoreFunctionOptions)

/-! ### Parts of a body -/

/-- The parts that are left out when they are false as a condition. -/
def conditional : List Name := ["rank", "sort", "collapse", "suggest", "script_fields"]

/-- The parts that are written as they are, with no regard to the objects in them. -/
def asGiven : List Name := "knn" :: "_source" :: "highlight" :: conditional

/-- There is a single vector search among those given. -/
def isSingle (given : Value) : Except Fault Bool :=
  match given with
  | .search _ _ | .held (.dict _ _) => .error .wrongType
  | given => do return (← given.items).length == 1

/-- What a search object writes of a part of its body, where `v` is what is written for the
value given.  A single vector search is written by itself. -/
def bodyEntry (key : Key) (given v : Value) : Except Fault Dict :=
  if conditional.contains key.name then return if given.truthy then [(key, v)] else []
  else
    match key.name, given with
    | .text "knn", given => do
      if !given.truthy then return []
      if ← isSingle given then return (← v.items).map fun item => (key, item)
      return [(key, v)]
    | .text "_source", .null => return []
    | .text "_source", .dict [] _ | .text "_source", .held (.dict [] _) => return []
    | .text "highlight", .dict ((_, fields) :: _) _ =>
      return if fields.truthy then [(key, v)] else []
    | _, _ => return [(key, v)]

/-! ### Objects -/

mutual

/-- A value with all objects of the search library in it written as dictionaries. -/
def written : Value → Except Fault Value
  | .query kind params => do return .single kind (.dict (← writtenEntries params))
  | .scoreFunction kind params => do
    return functionDictionary kind (← writtenEntries params)
  | .search parts _ => do return .dict (← writtenBody true parts)
  | .dict entries _ => do return .dict (← writtenEntries entries)
  | .held (.dict entries _) => do return .dict (← writtenEntries entries)
  | .list items _ => do return .list (← writtenItems items)
  | .tuple items => do return .tuple (← writtenItems items)
  | v => .ok v

/-- Items with all objects of the search library in them written as dictionaries. -/
def writtenItems : List Value → Except Fault (List Value)
  | [] => .ok []
  | item :: items => do
    let first ← written item
    return first :: (← writtenItems items)

/-- Entries with all objects of the search library in them written as dictionaries. -/
def writtenEntries : List (Key × Value) → Except Fault (List (Key × Value))
  | [] => .ok []
  | (key, v) :: entries => do
    let first ← written v
    return (key, first) :: (← writtenEntries entries)

/-- What a search object writes of the parts of its body, with all objects written as
dictionaries when `deep` is set, and else with those that it writes itself. -/
def writtenBody (deep : Bool) : List (Key × Value) → Except Fault (List (Key × Value))
  | [] => .ok []
  | (key, given) :: parts => do
    let v ← if deep || !asGiven.contains key.name then written given else pure given
    return (← bodyEntry key given v) ++ (← writtenBody deep parts)

end

/-- The dictionary that a search object is written as. -/
def bodyDictionary (parts : Dict) : Except Fault Value := do
  return .dict (← writtenBody false parts)

mutual

/-- A value in the given role, with the parts that it holds written as dictionaries. -/
def dictionary : Role → Value → Except Fault Value
  | _, .query kind params => do
    return .single kind (.dict (← dictionaryEntries (queryRoles kind) params))
  | _, .scoreFunction kind params => do
    return functionDictionary kind (← dictionaryEntries scoreFunctionRoles params)
  | _, .search parts _ => bodyDictionary parts
  | _, .held (.dict entries _) => do return .dict (← writtenEntries entries)
  | .many p, .list parts _ => do return .list (← dictionaryItems (.one p) parts)
  | _, v => .ok v

/-- Items in the given role, with the parts that they hold written as dictionaries. -/
def dictionaryItems (role : Role) : List Value → Except Fault (List Value)
  | [] => .ok []
  | item :: items => do
    let first ← dictionary role item
    return first :: (← dictionaryItems role items)

/-- Parameters with the parts that they hold in the given roles written as dictionaries. -/
def dictionaryEntries (roles : List (String × Role)) :
    List (Key × Value) → Except Fault (List (Key × Value))
  | [] => .ok []
  | (key, v) :: params => do
    let first ← dictionary ((Entries.find? key.word roles).getD .plain) v
    return (key, first) :: (← dictionaryEntries roles params)

end

/-- The dictionary that a query object is written as. -/
def queryDictionary (kind : String) (params : Dict) : Except Fault Value :=
  dictionary .plain (.query kind params)

end Search

end SearchDsl
