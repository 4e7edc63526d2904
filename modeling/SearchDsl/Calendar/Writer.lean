import SearchDsl.Calendar.Basic
import SearchDsl.Decimal.Digits

/-!
# Writing dates and times

`Date.iso` and `DateTime.iso` write the extended format of the international standard:
four digits for the year, two for the other numbers, and six for the microseconds of a
time or an offset that has any.
-/

namespace SearchDsl

open Decimal

/-- The digits of `n`, filled up with zeros to the given width. -/
def paddedDigits (width n : Nat) : List Char :=
  let ds := digitsOf n
  List.replicate (width - ds.length) '0' ++ ds

/-- The date as `YYYY-MM-DD`. -/
def Date.iso (d : Date) : List Char :=
  paddedDigits 4 d.year ++ '-' :: paddedDigits 2 d.month ++ '-' :: paddedDigits 2 d.day

/-- The places of a second, where they are not all zero. -/
def placesText (microsecond : Nat) : List Char :=
  if microsecond = 0 then [] else '.' :: paddedDigits 6 microsecond

/-- The offset as `+HH:MM`, with seconds and their places where it has any. -/
def offsetText (offset : Int) : List Char :=
  let places := offset.natAbs % 1000000
  let n := offset.natAbs / 1000000
  (if offset < 0 then '-' else '+') :: paddedDigits 2 (n / 3600) ++
    ':' :: paddedDigits 2 (n / 60 % 60) ++
    (if n % 60 = 0 ∧ places = 0 then []
     else ':' :: paddedDigits 2 (n % 60) ++ placesText places)

/-- The time of day. -/
def Clock.text (c : Clock) : List Char :=
  paddedDigits 2 c.hour ++ ':' :: paddedDigits 2 c.minute ++ ':' :: paddedDigits 2 c.second ++
    placesText c.microsecond

/-- Date and time of day with the given mark between them, and the offset. -/
def DateTime.text (mark : Char) (t : DateTime) : List Char :=
  t.date.iso ++ mark :: t.clock.text ++
    (match t.offset with
      | none => []
      | some offset => offsetText offset)

/-- Date and time of day in the extended format. -/
def DateTime.iso (t : DateTime) : List Char := t.text 'T'

end SearchDsl
