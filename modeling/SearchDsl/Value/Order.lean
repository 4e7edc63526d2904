import SearchDsl.Value.Equality

/-!
# Order

When a value is less than another one (`Value.less`), and the sorting of values that it leads
to.  Numbers are in order whatever their kinds, texts by their characters, and sequences of
one kind by the first item in which they differ; other values are in no order, which is a
fault.

Sorting finds the run at the start that is in order already, upwards or downwards, and puts
one item after the other into its place, so that items without a difference keep their
order.  Where a comparison fails the items stay as they were arranged until then
(`Arranged`).
-/

namespace SearchDsl

namespace Value

/-- The first sequence is less by the first item in which the two differ, or is shorter. -/
def lessByItems (same less : Value → Value → Except Fault Bool) :
    List Value → List Value → Except Fault Bool
  | x :: xs, y :: ys => do if ← same x y then lessByItems same less xs ys else less x y
  | [], _ :: _ => .ok true
  | _, [] => .ok false

/-- Octets as numbers. -/
def octetNumbers (octets : List UInt8) : List Nat := octets.map UInt8.toNat

/-- The first of two values that are nested less deeply than `fuel` is less. -/
def lessWithin : (fuel : Nat) → Value → Value → Except Fault Bool
  | 0, _, _ => .error .tooDeep
  | fuel + 1, a, b =>
    match Number.ofValue? a, Number.ofValue? b, a.text?, b.text? with
    | some n, some m, _, _ => n.less m
    | _, _, some s, some t => .ok (s < t)
    | _, _, _, _ =>
      match a, b with
      | .date d, .date e => .ok (d.number < e.number)
      | .dateTime t, .dateTime u =>
        if t.offset.isSome = u.offset.isSome then .ok (t.instant < u.instant)
        else .error .wrongType
      | .uuid u, .uuid w => .ok (u.value < w.value)
      | .bytes o, .bytes p => .ok (decide (octetNumbers o < octetNumbers p))
      | .list xs _, .list ys _ | .tuple xs, .tuple ys => lessByItems same (lessWithin fuel) xs ys
      | _, _ => .error .wrongType

/-- The first of two values is less. -/
def less (a b : Value) : Except Fault Bool := lessWithin (a.depth + 1) a b

end Value

/-! ### Sorting -/

/-- Items that are being arranged, up to the fault of a comparison. -/
structure Arranged (α : Type) where
  items : List α
  fault? : Option Fault

namespace Arranged

variable {α : Type}

/-- How many items go on with a run after the item before them. -/
def runLength (less : α → α → Except Fault Bool) (downwards : Bool) (before : α) :
    List α → Except Fault Nat
  | [] => .ok 0
  | x :: xs => do
    if (← less x before) = downwards then return (← runLength less downwards x xs) + 1
    else return 0

/-- Where an item belongs in those from `low` to `high` of some that are in order: after all that
are not greater. -/
def placeOf (less : α → α → Except Fault Bool) (x : α) (sorted : List α) (low high : Nat) :
    Except Fault Nat :=
  let middle := low + (high - low) / 2
  if _h : low < high then
    match sorted[middle]? with
    | none => .ok low
    | some y => do
      if ← less x y then placeOf less x sorted low middle
      else placeOf less x sorted (middle + 1) high
  else .ok low
termination_by high - low

/-- Items in order with further ones put into their places. -/
def insertAll (less : α → α → Except Fault Bool) (sorted : List α) : List α → Arranged α
  | [] => ⟨sorted, none⟩
  | x :: xs =>
    match placeOf less x sorted 0 sorted.length with
    | .ok place => insertAll less (sorted.take place ++ x :: sorted.drop place) xs
    | .error fault => ⟨sorted ++ x :: xs, some fault⟩

/-- The run at the start, which is turned where it goes downwards, and the items after it. -/
def firstRun (less : α → α → Except Fault Bool) : List α → Except Fault (List α × List α)
  | x :: y :: rest => do
    let downwards ← less y x
    let length := (← runLength less downwards y rest) + 2
    let run := (x :: y :: rest).take length
    return (if downwards then run.reverse else run, (x :: y :: rest).drop length)
  | items => .ok (items, [])

/-- Some items, arranged upwards. -/
def upwards (less : α → α → Except Fault Bool) (items : List α) : Arranged α :=
  match firstRun less items with
  | .ok (run, rest) => insertAll less run rest
  | .error fault => ⟨items, some fault⟩

/-- Some items, arranged upwards, or downwards with items without a difference in the same
order. -/
def sort (less : α → α → Except Fault Bool) (downwards : Bool) (items : List α) : Arranged α :=
  if downwards then
    let arranged := upwards less items.reverse
    ⟨arranged.items.reverse, arranged.fault?⟩
  else upwards less items

end Arranged

end SearchDsl
