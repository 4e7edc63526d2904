import SearchDsl.Search.Dictionary
import SearchDsl.Value.Depth
import SearchDsl.Value.Identity
import SearchDsl.Value.Number

/-!
# Equality

When two values are the same (`Value.same`).  Numbers are the same when their values are,
whatever their kinds, and an action is the same as the text of its word.  Lists are the same
item by item, and dictionaries entry by entry in any order.  What a query object hands out
is the same as what it was handed out of.  Query objects are the same when they are of one
kind and written alike.

A list or a dictionary is the same as itself even where an item of it is not.  Requests and
other objects that are composed, functions, encodings and objects of no known kind are the
same as nothing but themselves.
-/

namespace SearchDsl

namespace Number

/-- The number is a decimal that signals whenever it is asked for. -/
def isSignalling : Number → Bool
  | .decimal (.notANumber _ signalling _) => signalling
  | _ => false

/-- Two numbers are the same.  A decimal that is no number is not the same as anything. -/
def same (a b : Number) : Except Fault Bool :=
  if a.isSignalling || b.isSignalling then .error .notDecimal
  else .ok (!a.isUnordered && !b.isUnordered && a.name == b.name)

end Number

/-- Two moments are the same; one with an offset is not the same as one without. -/
def DateTime.same (t u : DateTime) : Bool :=
  t.offset.isSome == u.offset.isSome && t.instant == u.instant

namespace Value

/-- Items are the same one by one. -/
def allSame (same : Value → Value → Except Fault Bool) : List Value → List Value → Except Fault Bool
  | [], [] => .ok true
  | x :: xs, y :: ys => do if ← same x y then allSame same xs ys else return false
  | _, _ => .ok false

/-- The entries are among some others. -/
def allAmong (same : Value → Value → Except Fault Bool) (others : Dict) : Dict → Except Fault Bool
  | [] => .ok true
  | (key, v) :: entries => do
    let some other := Entries.find? key.name others | return false
    if ← same v other then allAmong same others entries else return false

/-- Two values that are nested less deeply than `fuel` are the same. -/
def sameWithin : (fuel : Nat) → Value → Value → Except Fault Bool
  | 0, _, _ => .error .tooDeep
  | fuel + 1, a, b =>
    let same := sameWithin fuel
    if a.isOneWith b then .ok true
    else
      match Number.ofValue? a, Number.ofValue? b, a.text?, b.text? with
      | some n, some m, _, _ => n.same m
      | _, _, some s, some t => .ok (s == t)
      | _, _, _, _ =>
        match a, b with
        | .null, .null | .clauses, .clauses => .ok true
        | .date d, .date e => .ok (d.number == e.number)
        | .dateTime t, .dateTime u => .ok (t.same u)
        | .uuid u, .uuid w => .ok (u.value == w.value)
        | .bytes o, .bytes p => .ok (o == p)
        | .held c, .held d => same c d
        | .held c, v | v, .held c => same c v
        | .list xs _, .list ys _ => allSame same xs ys
        | .tuple xs, .tuple ys => allSame same xs ys
        | .dict es _, .dict ds _ =>
          if es.length = ds.length then allAmong same ds es else .ok false
        | .query n ps, .query m qs =>
          if n = m then do same (← Search.queryDictionary n ps) (← Search.queryDictionary m qs)
          else .ok false
        | .scoreFunction n ps, .scoreFunction m qs =>
          if n = m then do
            same (← Search.dictionary .plain (.scoreFunction n ps))
              (← Search.dictionary .plain (.scoreFunction m qs))
          else .ok false
        | .search ps is, .search qs js => do
          if ← allSame same (is.getD []) (js.getD []) then
            return is.isSome == js.isSome &&
              (← same (← Search.bodyDictionary ps) (← Search.bodyDictionary qs))
          else return false
        | .operation x y z, .operation u v w => allSame same [x, y, z] [u, v, w]
        | _, _ => .ok false

/-- Two values are the same. -/
def same (a b : Value) : Except Fault Bool := sameWithin (max a.depth b.depth + 1) a b

end Value

end SearchDsl
