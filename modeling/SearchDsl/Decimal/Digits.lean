/-!
# Decimal digits

Natural numbers as lists of decimal digits, most significant first, and the double
nearest to a decimal.  Reading the digits of a number gives the number back.
-/

namespace SearchDsl

namespace Decimal

/-- The decimal digits of `n`, most significant first. -/
def digitsOf (n : Nat) : List Char := Nat.toDigits 10 n

/-- The number that digits denote, most significant first. -/
def ofDigits (ds : List Char) : Nat := Nat.ofDigitChars 10 ds 0

@[simp]
theorem ofDigits_digitsOf (n : Nat) :
  ofDigits (digitsOf n) = n
  := Nat.ofDigitChars_toDigits (by decide) (by decide)

theorem isDigit_of_mem_digitsOf {n : Nat} {c : Char} (h : c ∈ digitsOf n) :
  c.isDigit
  := Nat.isDigit_of_mem_toDigits (by decide) (by decide) h

/-- A minus sign for the negative. -/
def signText (negative : Bool) : List Char := if negative then ['-'] else []

/-- The text of an integer. -/
def intText (n : Int) : List Char := signText (n < 0) ++ digitsOf n.natAbs

/-- The double nearest to `m · 10 ^ e`.  Far outside the range of the doubles the answer is
an infinity or zero. -/
def nearestFloat (m : Nat) (e : Int) : Float :=
  let magnitude := (digitsOf m).length + e
  if m = 0 ∨ magnitude < -400 then 0.0
  else if 400 < magnitude then 1.0 / 0.0
  else Float.ofScientific m (e < 0) e.natAbs

/-- The sign of a number and the characters after it. -/
def splitSign : List Char → Bool × List Char
  | '-' :: cs => (true, cs)
  | '+' :: cs => (false, cs)
  | cs => (false, cs)

/-- The integer with the given sign. -/
def signed (negative : Bool) (n : Nat) : Int := if negative then -n else n

end Decimal

end SearchDsl
