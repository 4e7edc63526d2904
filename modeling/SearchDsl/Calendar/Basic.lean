/-!
# Dates and times

A `Date` of the Gregorian calendar and a `DateTime` to the microsecond, with or without
an offset from universal time.  Days are counted from the first day of the year one
(`daysBeforeYear`), and `Date.ofWeek?` gives the date of a day that is named by its week.
Moments are the same when their `DateTime.instant` is.
-/

namespace SearchDsl

/-- A day of the Gregorian calendar. -/
structure Date where
  year : Nat
  month : Nat
  day : Nat

/-- A time of day. -/
structure Clock where
  hour : Nat
  minute : Nat
  second : Nat
  microsecond : Nat

/-- A moment of a day, with its offset from universal time in microseconds where it is known. -/
structure DateTime where
  date : Date
  clock : Clock
  offset : Option Int

/-! ### Counting days -/

/-- A year of 366 days. -/
def isLeapYear (year : Nat) : Bool :=
  year % 4 == 0 && (year % 100 != 0 || year % 400 == 0)

/-- The number of days of a month. -/
def daysInMonth (year month : Nat) : Nat :=
  if month = 2 then if isLeapYear year then 29 else 28
  else if month = 4 ∨ month = 6 ∨ month = 9 ∨ month = 11 then 30
  else 31

/-- The number of days before the first day of a year. -/
def daysBeforeYear (year : Nat) : Nat :=
  let past := year - 1
  past * 365 + past / 4 - past / 100 + past / 400

/-- The weekday of the first day of a year, counted from Monday as zero. -/
def firstWeekday (year : Nat) : Nat := daysBeforeYear year % 7

/-- The last year that a date may have. -/
def lastYear : Nat := 9999

/-- The date is one of the calendar. -/
def Date.isValid (d : Date) : Bool :=
  1 ≤ d.year && d.year ≤ lastYear && 1 ≤ d.month && d.month ≤ 12 && 1 ≤ d.day &&
    d.day ≤ daysInMonth d.year d.month

/-- The time is one of a day. -/
def Clock.isValid (c : Clock) : Bool := c.hour < 24 && c.minute < 60 && c.second < 60

/-- The month and the day of the month that the day of the given number, counted from one,
has among some months of a year. -/
def monthAndDay? (year : Nat) : (months : List Nat) → (number : Nat) → Option (Nat × Nat)
  | [], _ => none
  | month :: months, number =>
    if number ≤ daysInMonth year month then some (month, number)
    else monthAndDay? year months (number - daysInMonth year month)

/-- The date of the day of the given number, which lies in the given year or next to it; there
is none after the last year. -/
def Date.ofDays? (year number : Nat) : Option Date := do
  let year :=
    if number ≤ daysBeforeYear year then year - 1
    else if daysBeforeYear (year + 1) < number then year + 1
    else year
  let (month, day) ← monthAndDay? year ((List.range 12).map (· + 1)) (number - daysBeforeYear year)
  if year ≤ lastYear then some ⟨year, month, day⟩ else none

/-- The number of days before a month of a year and in the years before it. -/
def daysBeforeMonth (year month : Nat) : Nat :=
  (List.range (month - 1)).foldl (fun days m => days + daysInMonth year (m + 1))
    (daysBeforeYear year)

/-- The number of a day. -/
def Date.number (d : Date) : Nat := daysBeforeMonth d.year d.month + d.day

/-- The number of microseconds since the start of the day. -/
def Clock.microseconds (c : Clock) : Nat :=
  ((c.hour * 60 + c.minute) * 60 + c.second) * 1000000 + c.microsecond

/-- The number of microseconds since the start of the day before the first one, in universal
time where the offset from it is known. -/
def DateTime.instant (t : DateTime) : Int :=
  t.date.number * 86400000000 + t.clock.microseconds - t.offset.getD 0

/-! ### Weeks -/

/-- The number of the Monday of the first week of a year, which is the week that has most of
its days in the year. -/
def firstMonday (year : Nat) : Nat :=
  let before := firstWeekday year
  if 3 < before then daysBeforeYear year + 8 - before else daysBeforeYear year + 1 - before

/-- A year of 53 weeks. -/
def isLongYear (year : Nat) : Bool :=
  firstWeekday year == 3 || (firstWeekday year == 2 && isLeapYear year)

/-- The date of a day of a week, counted from Monday as one. -/
def Date.ofWeek? (year week day : Nat) : Option Date :=
  if 1 ≤ year ∧ year ≤ lastYear ∧ 1 ≤ week ∧ (week ≤ 52 ∨ week = 53 ∧ isLongYear year) ∧
      1 ≤ day ∧ day ≤ 7 then
    Date.ofDays? year (firstMonday year + 7 * (week - 1) + (day - 1))
  else none

end SearchDsl
