import SearchDsl.Search.Copy
import SearchDsl.Value.Number

/-!
# Single hits

The hit at a position of a search is found by a search of its own: a copy of the search
whose bounds are those of the hit, within the bounds that the search has.
-/

namespace SearchDsl

namespace Search

/-! ### Bounds -/

/-- The number that bounds hits.  A query of everything combines with anything that can be
copied, which a number cannot. -/
def boundOf : Value → Except Fault Number
  | .query "match_all" _ => .error .noSuchMember
  | v =>
    match Number.ofValue? v with
    | some n => .ok n
    | none => .error .wrongType

/-- The number of hits that are passed over; one that is false as a condition is zero. -/
def startOf (v : Value) : Except Fault Number :=
  if v.truthy then boundOf v else .ok (.int 0)

/-- The number of hits from one bound to another. -/
def sizeBetween (start stop : Number) : Except Fault Number := do
  let size ← stop.sub start.orZero
  return if ← Number.less (.int 0) size then size else .int 0

/-- The lesser of two bounds, the second of which may be absent. -/
def lesser (bound : Number) : Option Number → Except Fault Number
  | none => .ok bound
  | some other => do return if ← other.less bound then other else bound

/-- The parameters of a search with bounds for the hit at a position, or with its own bounds
without one. -/
def bounded (position : Option Int) (params : Dict) : Except Fault Dict := do
  let given := params.get "from"
  let stop ← (params.find? "size").mapM fun size => do
    Number.add (← startOf given) (← boundOf size)
  match position with
  | some position =>
    let start ← Number.add (← startOf given) (.int position)
    let stop ← lesser (← Number.add (← startOf given) (.int (position + 1))) stop
    let size ← sizeBetween start stop
    return params.merge [("from", start.toValue), ("size", size.toValue)]
  | none =>
    match stop with
    | none => return params
    | some stop => do
      return params.merge [("size", (← sizeBetween (← startOf given) stop).toValue)]

/-- The parts of a search with bounds for the hit at a position. -/
def boundedParts (position : Option Int) (parts : Dict) : Except Fault Dict := do
  let params ← bounded position (parametersOf parts)
  return parts.select placedBefore ++ params ++ parts.select placedAfter

/-! ### Hits -/

mutual

/-- The order of the hits of a search when the search is copied.  A search that stands for it is
copied with its own bounds. -/
def copiedOrder : Value → Except Fault Value
  | .search parts indices => do
    return .search (← boundedParts none (← copied parts)) indices
  | v => fullSlice v

/-- The parts of a search when it is copied; what to collapse comes before the order. -/
def copied : List (Key × Value) → Except Fault (List (Key × Value))
  | [] => .ok []
  | (key, v) :: parts => do
    if key.name = .text "sort" then
      (part "collapse" parts).forM fun e => do
        let _ ← shallowCopy e.2
      let order ← copiedOrder v
      return (key, order) :: (← copied parts)
    else
      let v ← copiedPart key.name v
      return (key, v) :: (← copied parts)

end

/-- The search for the hit at a position among the hits of a search. -/
def hitAt (parts : Dict) (indices : Option (List Value)) (position : Int) : Except Fault Value := do
  let parts ← copied parts
  if position < 0 then .error .badValue
  return .search (← boundedParts (some position) parts) indices

end Search

end SearchDsl
