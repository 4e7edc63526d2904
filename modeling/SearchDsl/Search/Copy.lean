import SearchDsl.Search.Body

/-!
# Copies of searches

A search object is changed by changing a copy of it.  The copy has its own list or
dictionary for most of the parts of the body, and shares what these hold.  Copying asks
more of the parts of a search than writing does, so that a part that cannot be copied is a
fault here although the search can be written.

The copy keeps the order of the parts, in which those that the library knows stand around
the other parameters (`Search.ordered`).
-/

namespace SearchDsl

namespace Search

/-! ### Order -/

/-- The parts of a body before the other parameters. -/
def placedBefore : List Name :=
  ["query", "knn", "rank", "post_filter", "aggs", "sort", "collapse"]

/-- The parts of a body after the other parameters. -/
def placedAfter : List Name := ["_source", "highlight", "suggest", "script_fields"]

/-- The parameters of a body that have no place of their own. -/
def parametersOf (parts : Dict) : Dict := parts.erase (placedBefore ++ placedAfter)

/-- The parts of a body in order. -/
def ordered (parts : Dict) : Dict :=
  parts.select placedBefore ++ parametersOf parts ++ parts.select placedAfter

/-- The parts of a body with one of them replaced. -/
def setPart (name : String) (v : Value) (parts : Dict) : Dict := ordered (parts.insert name v)

/-! ### Copies -/

/-- The copy of a list or a dictionary by itself. -/
def shallowCopy : Value → Except Fault Value
  | .dict entries _ => .ok (.dict entries)
  | .list items _ | .held (.list items _) => .ok (.list items)
  | v => .error (v.lacking "copy")

/-- All items of a sequence as a sequence of the same kind. -/
def fullSlice : Value → Except Fault Value
  | .list items _ => .ok (.list items)
  | .held (.list items _) => .ok (.held (.list items))
  | .str s => .ok (.str s)
  | .action a => .ok (.str a.word)
  | .bytes octets => .ok (.bytes octets)
  | .tuple items => .ok (.tuple items)
  | _ => .error .wrongType

/-- The parts of a body that are copied by themselves. -/
def copiedParts : List Name := ["rank", "collapse", "suggest", "script_fields"]

/-- A list or a dictionary that is copied where there is one. -/
def copiedIfAny : Value → Value
  | .dict entries _ => .dict entries
  | .list items _ => .list items
  | v => v

/-- The value of a part when the search is copied. -/
def copiedPart (name : Name) (v : Value) : Except Fault Value := do
  match name, v with
  | .text "knn", v => do return .list (← (← v.items).mapM shallowCopy)
  | .text "_source", v => return copiedIfAny v
  | .text "highlight", .dict ((key, fields) :: options) _ => do
    return .dict ((key, ← shallowCopy fields) :: options)
  | name, v => if copiedParts.contains name then shallowCopy v else return v

end Search

end SearchDsl
