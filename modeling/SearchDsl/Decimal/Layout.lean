import SearchDsl.Decimal.Shortest

/-!
# The text of a double

A double is written with the digits of its shortest decimal.  Where the point falls is
decided by a `Layout`: positional with at least one place for the exponents from `least`
to below `most`, and with one digit before the point and an exponent of at least two
digits outside.  The two layouts differ in their words for the values that are no numbers.
-/

namespace SearchDsl

namespace Decimal

/-- How doubles are written. -/
structure Layout where
  /-- The least exponent of ten with positional text. -/
  least : Int
  /-- The exponent of ten from which on there is no positional text. -/
  most : Int
  /-- The word for a value that is not a number. -/
  notANumber : String
  /-- The word for an infinite value. -/
  infinity : String

/-- Doubles in JSON text. -/
def Layout.json : Layout := ⟨-4, 16, "NaN", "Infinity"⟩

/-- Doubles in literals. -/
def Layout.literal : Layout := ⟨-4, 16, "nan", "inf"⟩

/-- The exponent part of a number. -/
def exponentText (x : Int) : List Char :=
  let ds := digitsOf x.natAbs
  let padded := if ds.length < 2 then '0' :: ds else ds
  'e' :: (if x < 0 then '-' else '+') :: padded

/-- Digits with the point written at its place. -/
def positionalText (ds : List Char) (point : Int) : List Char :=
  if point ≤ 0 then
    '0' :: '.' :: (List.replicate point.natAbs '0' ++ ds)
  else
    let whole := point.toNat
    if ds.length ≤ whole then ds ++ List.replicate (whole - ds.length) '0' ++ ['.', '0']
    else ds.take whole ++ '.' :: ds.drop whole

/-- Digits with one of them before the point, and the exponent. -/
def scientificText (ds : List Char) (point : Int) : List Char :=
  match ds with
  | [] => ['0']
  | [d] => d :: exponentText (point - 1)
  | d :: rest => d :: '.' :: rest ++ exponentText (point - 1)

/-- The text of a significand. -/
def Significand.text (layout : Layout) (s : Significand) : List Char :=
  let exponent := s.point - 1
  if layout.least ≤ exponent ∧ exponent < layout.most then positionalText s.digits s.point
  else scientificText s.digits s.point

/-- The text of a double taken apart. -/
def Binary.text (layout : Layout) : Binary → List Char
  | .notANumber => layout.notANumber.toList
  | .infinite negative => signText negative ++ layout.infinity.toList
  | .finite negative m q =>
    signText negative ++ (if m = 0 then ['0', '.', '0'] else (shortest m q).text layout)

/-- The text of a double. -/
def Layout.text (layout : Layout) (x : Float) : List Char :=
  (Binary.ofFloat x).text layout

end Decimal

end SearchDsl
