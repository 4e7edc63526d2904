import SearchDsl.Value.Order

/-!
# Sequences

Where something stands in a sequence, within bounds that may count from the end.  A text
within a text and octets within octets are found as a whole (`Sequence.find?`), and an item
by being the same as it (`Sequence.findSame?`).
-/

namespace SearchDsl

/-- The integer that a value counts with. -/
def Value.toInt : Value → Except Fault Int
  | .int n => .ok n
  | .bool b => .ok b.toInt
  | _ => .error .wrongType

namespace Sequence

variable {α : Type}

/-- The place that a position means among some items; a negative one counts from the end. -/
def place (length : Nat) (position : Int) : Nat :=
  (if position < 0 then position + length else position).toNat

/-- The item at a position, which counts from the end when it is negative. -/
def itemAt (items : List α) (position : Int) : Except Fault α :=
  if position < -items.length then .error .outOfRange
  else
    match items[place items.length position]? with
    | some item => .ok item
    | none => .error .outOfRange

/-- The bounds within which something is to be found. -/
structure Bounds where
  start : Int
  stop : Option Int

namespace Bounds

/-- The items within the bounds. -/
def within (b : Bounds) (items : List α) : List α :=
  match b.stop with
  | some stop => (items.take (place items.length stop)).drop (place items.length b.start)
  | none => items.drop (place items.length b.start)

/-- The start lies within the items and before the stop. -/
def isProper (b : Bounds) (items : List α) : Bool :=
  let start := place items.length b.start
  start ≤ items.length && b.stop.all fun stop => start ≤ place items.length stop

end Bounds

/-- The place of the first part of `items` that is `part`, where `position` is the place of the
first item. -/
def findFrom? [BEq α] (part : List α) : (position : Nat) → (items : List α) → Option Nat
  | position, [] => if part.isEmpty then some position else none
  | position, item :: items =>
    if part.isPrefixOf (item :: items) then some position
    else findFrom? part (position + 1) items

/-- The place of the first part of `items` that is `part`, within bounds. -/
def find? [BEq α] (part : List α) (b : Bounds) (items : List α) : Option Nat :=
  if b.isProper items then findFrom? part (place items.length b.start) (b.within items) else none

/-- How often `part`, which is not empty, occurs in some items one after the other, where `skipped`
items still belong to the last occurrence. -/
def countFrom [BEq α] (part : List α) : (skipped : Nat) → (items : List α) → Nat
  | _, [] => 0
  | skipped + 1, _ :: items => countFrom part skipped items
  | 0, item :: items =>
    if part.isPrefixOf (item :: items) then countFrom part (part.length - 1) items + 1
    else countFrom part 0 items

/-- How often `part` occurs in some items, within bounds; nothing occurs between all of them. -/
def count [BEq α] (part : List α) (b : Bounds) (items : List α) : Nat :=
  if !b.isProper items then 0
  else if part.isEmpty then (b.within items).length + 1
  else countFrom part 0 (b.within items)

/-- The place of the first of some items that is the same as `v`, where `position` is the place
of the first item. -/
def findSameFrom? (v : Value) : (position : Nat) → List Value → Except Fault (Option Nat)
  | _, [] => .ok none
  | position, item :: items => do
    if ← item.same v then return some position else findSameFrom? v (position + 1) items

/-- The place of the first of some items that is the same as `v`, within bounds. -/
def findSame? (v : Value) (b : Bounds) (items : List Value) : Except Fault (Option Nat) :=
  findSameFrom? v (place items.length b.start) (b.within items)

end Sequence

end SearchDsl
