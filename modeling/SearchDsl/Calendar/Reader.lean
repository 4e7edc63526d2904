import SearchDsl.Calendar.Basic
import SearchDsl.Decimal.Digits

/-!
# Reading dates and times

`Date.parse` and `DateTime.parse` read the formats of the international standard: dates by
month or by week, numbers with marks between them or without, and a time of day that may
end after the hour or the minute and may carry an offset.  Any character may stand between
date and time, and places of a second beyond the sixth are dropped.

The parts are told apart by their widths, and these are counted in octets.  So a text is read
as the list of its octets (`codeUnits`).
-/

namespace SearchDsl

open Decimal

/-- The octets of a text, each as the character of its number. -/
def codeUnits (s : String) : List Char := s.toUTF8.toList.map fun b => Char.ofNat b.toNat

/-- The octet continues a character that another one begins. -/
def continues (c : Char) : Bool := '\u0080' ≤ c && c < '\u00c0'

/-- Reads exactly `width` digits. -/
def takeNumber (width : Nat) (cs : List Char) : Option (Nat × List Char) :=
  let ds := cs.take width
  if ds.length = width ∧ ds.all Char.isDigit then some (ofDigits ds, cs.drop width) else none

/-- Reads the character `c` where it is `expected`. -/
def takeMark (c : Char) (expected : Bool) (cs : List Char) : Option (List Char) :=
  if expected then
    match cs with
    | [] => none
    | d :: cs => if d = c then some cs else none
  else some cs

/-! ### Dates -/

/-- Reads the week and the day of a date after the mark for a week; without a day it is the
first one. -/
def readWeekDate (year : Nat) (hyphens : Bool) (cs : List Char) : Option Date := do
  let (week, cs) ← takeNumber 2 cs
  if cs.isEmpty then Date.ofWeek? year week 1
  else
    let (day, _) ← takeNumber 1 (← takeMark '-' hyphens cs)
    Date.ofWeek? year week day

/-- Reads the month and the day of a date. -/
def readMonthDate (year : Nat) (hyphens : Bool) (cs : List Char) : Option Date := do
  let (month, cs) ← takeNumber 2 cs
  let (day, _) ← takeNumber 2 (← takeMark '-' hyphens cs)
  let date : Date := ⟨year, month, day⟩
  if date.isValid then some date else none

/-- Reads a date. -/
def readDate (cs : List Char) : Option Date := do
  let (year, cs) ← takeNumber 4 cs
  let hyphens := cs.head? == some '-'
  match if hyphens then cs.drop 1 else cs with
  | 'W' :: cs => readWeekDate year hyphens cs
  | cs => readMonthDate year hyphens cs

/-- Reads a date, which has seven, eight or ten octets. -/
def Date.parse (s : String) : Option Date :=
  let cs := codeUnits s
  if [7, 8, 10].contains cs.length then readDate cs else none

/-- The number of octets of the date at the start of a date with a time of day.  After a
week with hyphens a hyphen belongs to the date unless a digit follows at a distance, and
after one without them the parity of the digits tells whether the first is a day. -/
def dateWidth? (cs : List Char) : Option Nat :=
  if cs.length < 7 then none
  else if cs.length = 7 then some 7
  else
    match cs.drop 4 with
    | '-' :: 'W' :: rest =>
      match rest.drop 2 with
      | ['-'] => none
      | '-' :: _ :: c :: _ => if c.isDigit then some 8 else some 10
      | '-' :: _ => some 10
      | _ => some 8
    | '-' :: _ => some 10
    | 'W' :: rest =>
      let digits := ((rest.drop 2).takeWhile Char.isDigit).length
      if digits < 2 then some (7 + digits) else if digits % 2 = 1 then some 7 else some 8
    | _ => some 8

/-! ### Times of day -/

/-- Reads the places of a second, to the microsecond. -/
def takePlaces (cs : List Char) : Option (Nat × List Char) :=
  let ds := cs.take 6
  if ds.all Char.isDigit then
    some (ofDigits ((ds ++ List.replicate 6 '0').take 6), (cs.drop 6).dropWhile Char.isDigit)
  else none

/-- Reads up to `count` more numbers of a time of day and the places after the last of them,
and returns what follows.  The time ends where at most one character is left. -/
def takeNumbers (colons : Bool) : (count : Nat) → List Char → Option (List Nat × Nat × List Char)
  | count, mark :: next :: cs =>
    if mark = '.' ∨ mark = ',' then do
      let (microsecond, cs) ← takePlaces (next :: cs)
      return ([], microsecond, cs)
    else do
      let cs ← takeMark ':' colons (mark :: next :: cs)
      match count with
      | 0 =>
        let (microsecond, cs) ← takePlaces cs
        return ([], microsecond, cs)
      | count + 1 =>
        let (n, cs) ← takeNumber 2 cs
        let (ns, microsecond, cs) ← takeNumbers colons count cs
        return (n :: ns, microsecond, cs)
  | _, cs => some ([], 0, cs)

/-- Reads a time of day, and returns what follows it.  A colon after the hour calls for one
after every other number. -/
def takeClock (cs : List Char) : Option (Clock × List Char) := do
  let (hour, cs) ← takeNumber 2 cs
  let (ns, microsecond, cs) ← takeNumbers (cs.head? == some ':') 2 cs
  return (⟨hour, ns[0]?.getD 0, ns[1]?.getD 0, microsecond⟩, cs)

/-- An offset of less than a day; one of less than a second is none. -/
def offsetOf? (negative : Bool) (c : Clock) : Option Int :=
  let n := c.microseconds
  if n < 1000000 then some 0
  else if n < 24 * 3600 * 1000000 then some (signed negative n)
  else none

/-- The character starts an offset. -/
def startsOffset (c : Char) : Bool := c == '+' || c == '-' || c == 'Z'

/-- Nothing follows; a null character ends the text before the rest of it. -/
def isEnd : List Char → Bool
  | [] => true
  | c :: _ => c == '\x00'

/-- Reads a time of day with its offset, where it has one. -/
def readClock (cs : List Char) : Option (Clock × Option Int) := do
  let (clock, rest) ← takeClock (cs.takeWhile fun c => !startsOffset c)
  match cs.dropWhile fun c => !startsOffset c with
  | [] => if isEnd rest then some (clock, none) else none
  | 'Z' :: cs => if isEnd cs then some (clock, some 0) else none
  | sign :: cs => do
    let (difference, rest) ← takeClock cs
    let offset ← offsetOf? (sign == '-') difference
    if isEnd rest then some (clock, some offset) else none

/-- Reads a date with a time of day; without one it is midnight. -/
def DateTime.parse (s : String) : Option DateTime := do
  let cs := codeUnits s
  let width ← dateWidth? cs
  let date ← readDate (cs.take width)
  if cs.length = width then return ⟨date, ⟨0, 0, 0, 0⟩, none⟩
  let (clock, offset) ← readClock ((cs.drop (width + 1)).dropWhile continues)
  if clock.isValid then return ⟨date, clock, offset⟩ else none

end SearchDsl
