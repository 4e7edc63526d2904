import SearchDsl.Decimal.Digits
import SearchDsl.Text.Blank
import SearchDsl.Text.Digit

/-!
# Exact decimals

An `Exact` decimal is a coefficient with a power of ten, and keeps the precision with
which it was written: `1.10` and `1.1` are different decimals.  Beside the finite ones
there are two infinities and the values that are no numbers, quiet or signalling.
`Exact.parse` reads and `Exact.text` writes the usual notation.
-/

namespace SearchDsl

namespace Decimal

/-- A decimal with its written precision. -/
inductive Exact where
  /-- The number `coefficient · 10 ^ exponent`, negated when `negative` is set. -/
  | finite (negative : Bool) (coefficient : Nat) (exponent : Int)
  | infinite (negative : Bool)
  /-- Not a number; `payload` holds the digits written after the word. -/
  | notANumber (negative signalling : Bool) (payload : List Char)

/-- A zero of either sign and any precision. -/
def Exact.isZero : Exact → Bool
  | .finite _ coefficient _ => coefficient == 0
  | _ => false

/-- The part of a finite decimal after its sign. -/
def finiteText (coefficient : Nat) (exponent : Int) : List Char :=
  let ds := digitsOf coefficient
  let left := exponent + ds.length
  let point := if exponent ≤ 0 ∧ -6 < left then left else 1
  let mantissa :=
    if point ≤ 0 then '0' :: '.' :: (List.replicate point.natAbs '0' ++ ds)
    else if ds.length ≤ point.toNat then ds ++ List.replicate (point.toNat - ds.length) '0'
    else ds.take point.toNat ++ '.' :: ds.drop point.toNat
  if left = point then mantissa
  else
    mantissa ++ 'E' :: (if left < point then '-' else '+') :: digitsOf (left - point).natAbs

/-- The text of a decimal: positional unless the exponent is positive or the number is
smaller than a millionth. -/
def Exact.text : Exact → List Char
  | .finite negative coefficient exponent =>
    signText negative ++ finiteText coefficient exponent
  | .infinite negative => signText negative ++ "Infinity".toList
  | .notANumber negative signalling payload =>
    signText negative ++ (if signalling then "sNaN" else "NaN").toList ++ payload

/-- The double nearest to a decimal; a signalling value has none. -/
def Exact.toFloat? : Exact → Option Float
  | .finite negative coefficient exponent =>
    let x := nearestFloat coefficient exponent
    some (if negative then -x else x)
  | .infinite negative => some (if negative then -1.0 / 0.0 else 1.0 / 0.0)
  | .notANumber _ signalling _ => if signalling then none else some (0.0 / 0.0)

/-- Reads an exponent part, empty or a mark with a signed number. -/
def parseExponent : List Char → Option Int
  | [] => some 0
  | 'e' :: cs =>
    let (negative, ds) := splitSign cs
    if ds.isEmpty || !ds.all Char.isDigit then none else some (signed negative (ofDigits ds))
  | _ => none

/-- The greatest exponent of a decimal with one digit before the point. -/
def mostExponent : Int := 999999999999999999

/-- The least exponent of the last digit of a decimal. -/
def leastExponent : Int := -1999999999999999997

/-- There is a decimal with the given coefficient and exponent. -/
def inRange (coefficient : Nat) (exponent : Int) : Bool :=
  leastExponent ≤ exponent && exponent + (digitsOf coefficient).length - 1 ≤ mostExponent

/-- Reads a finite decimal without its sign, in lower case. -/
def parseFinite (negative : Bool) (cs : List Char) : Option Exact := do
  let whole := cs.takeWhile Char.isDigit
  let rest := cs.dropWhile Char.isDigit
  let (places, rest) :=
    match rest with
    | '.' :: rest => (rest.takeWhile Char.isDigit, rest.dropWhile Char.isDigit)
    | rest => ([], rest)
  if whole.isEmpty && places.isEmpty then none
  else
    let coefficient := ofDigits (whole ++ places)
    let exponent := (← parseExponent rest) - places.length
    if inRange coefficient exponent then some (.finite negative coefficient exponent) else none

/-- Reads the digits after the word for a value that is no number. -/
def parsePayload (negative signalling : Bool) (cs : List Char) : Option Exact :=
  if cs.all Char.isDigit then some (.notANumber negative signalling (cs.dropWhile (· == '0')))
  else none

/-- Reads a decimal, with or without white space around it and in the digits of any script.
Underscores are skipped. -/
def Exact.parse (s : String) : Option Exact :=
  let cs := ((trimBoth isSpace s.toList).filter (· != '_')).map plainDigit
  let (negative, cs) := splitSign (cs.map Char.toLower)
  match cs with
  | 'i' :: 'n' :: 'f' :: rest =>
    if rest = [] ∨ rest = "inity".toList then some (.infinite negative) else none
  | 'n' :: 'a' :: 'n' :: rest => parsePayload negative false rest
  | 's' :: 'n' :: 'a' :: 'n' :: rest => parsePayload negative true rest
  | cs => parseFinite negative cs

end Decimal

end SearchDsl
