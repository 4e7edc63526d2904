import SearchDsl.Decimal.Digits

/-!
# Shortest decimals

The finite doubles are the numbers `m · 2 ^ q`.  `Binary.ofFloat` takes a double apart,
and `shortest m q` is the decimal with the fewest digits among those that lie closer to
`m · 2 ^ q` than to any other double, and the nearest to `m · 2 ^ q` of these.  A decimal
halfway to a neighbour counts when `m` is even, as reading it back goes to the even one.

All numbers are scaled to natural numbers: `m · 2 ^ q` with a negative `q` is
`m · 5 ^ (-q)` over a power of ten.
-/

namespace SearchDsl

namespace Decimal

/-- A double taken apart. -/
inductive Binary where
  /-- The number `m · 2 ^ q`, negated when `negative` is set. -/
  | finite (negative : Bool) (m : Nat) (q : Int)
  | infinite (negative : Bool)
  | notANumber

/-- The number of fractions, and the least coefficient of a double of full precision. -/
def fractionCount : Nat := 0x10000000000000

/-- Takes a double apart by its sign bit, eleven exponent bits and fifty-two fraction bits. -/
def Binary.ofFloat (x : Float) : Binary :=
  let bits : Nat := x.toBits.toNat
  let negative : Bool := bits / fractionCount / 2048 == 1
  let exponent : Nat := bits / fractionCount % 2048
  let fraction : Nat := bits % fractionCount
  if exponent = 2047 then
    if fraction = 0 then .infinite negative else .notANumber
  else if exponent = 0 then .finite negative fraction (-1074)
  else .finite negative (fractionCount + fraction) ((exponent : Int) - 1075)

/-- The decimal `0.d₁d₂…dₙ · 10 ^ point`, where `d₁d₂…dₙ` are the digits. -/
structure Significand where
  /-- The digits, most significant first. -/
  digits : List Char
  /-- The power of ten by which the fraction is scaled. -/
  point : Int

/-- The digits without the zeros at their end. -/
def dropTrailingZeros (ds : List Char) : List Char :=
  (ds.reverse.dropWhile (· == '0')).reverse

/-- The closed or open interval of the numbers that round to `value`, on one scale. -/
structure Rounding where
  low : Nat
  value : Nat
  high : Nat
  /-- The ends belong to the interval. -/
  closed : Bool
  /-- The power of ten of the scale. -/
  scale : Int

/-- The numbers that round to `m · 2 ^ q`, in quarters of its unit.  Below a power of two the
doubles lie twice as close. -/
def Rounding.ofBinary (m : Nat) (q : Int) : Rounding :=
  let below : Nat := if m = fractionCount ∧ q ≠ -1074 then 1 else 2
  let unit : Nat := if q < 2 then Nat.pow 5 (2 - q).toNat else Nat.pow 2 (q - 2).toNat
  { low := (4 * m - below) * unit
    value := 4 * m * unit
    high := (4 * m + 2) * unit
    closed := m % 2 == 0
    scale := if q < 2 then q - 2 else 0 }

/-- `c` rounds to the value of the interval. -/
def Rounding.contains (r : Rounding) (c : Nat) : Bool :=
  if r.closed then r.low ≤ c && c ≤ r.high else r.low < c && c < r.high

/-- The multiple of `unit` that rounds to the value, if there is one: of the two around the
value the nearer, and of two equally near ones the even. -/
def Rounding.gridPoint? (r : Rounding) (unit : Nat) : Option Nat :=
  let c := r.value / unit
  let down := r.value % unit
  let up := unit - down
  match r.contains (c * unit), r.contains ((c + 1) * unit) with
  | true, true =>
    some (if down < up ∨ (down = up ∧ c % 2 = 0) then c else c + 1)
  | true, false => some c
  | false, true => some (c + 1)
  | false, false => none

/-- The first grid, from coarse to fine, with a point that rounds to the value; `places` counts
the digits of the value that a grid does not see. -/
def Rounding.firstGridPoint (r : Rounding) : (places : Nat) → Nat × Nat
  | 0 => (r.value, 0)
  | places + 1 =>
    match r.gridPoint? (10 ^ (places + 1)) with
    | some c => (c, places + 1)
    | none => r.firstGridPoint places

/-- The shortest decimal that reads back as `m · 2 ^ q`. -/
def shortest (m : Nat) (q : Int) : Significand :=
  let r := Rounding.ofBinary m q
  let (c, places) := r.firstGridPoint ((digitsOf r.value).length - 1)
  let ds := digitsOf c
  ⟨dropTrailingZeros ds, ds.length + places + r.scale⟩

end Decimal

end SearchDsl
