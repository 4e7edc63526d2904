import SearchDsl.Value.Basic

/-!
# Depth

How deep a value is nested (`Value.depth`).  What an object builds or is written as is less
deep than the object, so that the depth is fuel enough to go through a value and through
what its objects build.
-/

namespace SearchDsl

namespace Value

mutual

/-- How deep a value is nested, counting three for every object and container. -/
def depth : Value → Nat
  | .list items _ => itemsDepth items + 3
  | .tuple items => itemsDepth items + 3
  | .dict entries _ => entriesDepth entries + 3
  | .held contents => depth contents + 3
  | .query _ params => entriesDepth params + 6
  | .scoreFunction _ params => entriesDepth params + 6
  | .search parts indices => max (entriesDepth parts) (indicesDepth indices) + 6
  | .operation act header body => max (depth act) (max (depth header) (depth body)) + 6
  | .request state _ _ => depth state + 3
  | .boolQuery state _ => depth state + 6
  | .aggregations nodes last _ => max (depth nodes) (depth last) + 3
  | .suggestions state _ => depth state + 6
  | .indexConfig state _ => depth state + 3
  | .bulk operations _ _ => itemsDepth operations + 6
  | .multiSearch searches _ _ => itemsDepth searches + 6
  | _ => 1

/-- How deep some items are nested. -/
def itemsDepth : List Value → Nat
  | [] => 0
  | item :: items => max (depth item) (itemsDepth items)

/-- How deep the values of some entries are nested. -/
def entriesDepth : List (Key × Value) → Nat
  | [] => 0
  | (_, v) :: entries => max (depth v) (entriesDepth entries)

/-- How deep the names of indices are nested. -/
def indicesDepth : Option (List Value) → Nat
  | none => 0
  | some names => itemsDepth names

end

end Value

end SearchDsl
