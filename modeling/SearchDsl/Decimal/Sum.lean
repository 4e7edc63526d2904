import SearchDsl.Decimal.Exact
import SearchDsl.Fault

/-!
# Sums of decimals

The sum of two decimals is rounded to `precision` digits, a half to the even neighbour, and
keeps the precision of the summand that was written with more places where it can.  A sum
is a fault when it is too large, and when it is undefined: that of opposite infinities, or
with a signalling value.  With a quiet value that is no number the sum is that value.
-/

namespace SearchDsl

namespace Decimal

/-- The digits that a sum has at most. -/
def precision : Nat := 28

/-- The greatest exponent of a sum with one digit before the point. -/
def mostSumExponent : Int := 999999

/-- The least exponent of the last digit of a sum. -/
def leastSumExponent : Int := -1000026

/-- The number of decimal digits of `c`. -/
def digitCount (c : Nat) : Nat := (digitsOf c).length

/-- The integer nearest to `n / 10 ^ k`; a half goes to the even neighbour. -/
def roundedQuotient (n k : Nat) : Nat :=
  let unit := Nat.pow 10 k
  let rest := n % unit
  if unit < 2 * rest ∨ (unit = 2 * rest ∧ n / unit % 2 = 1) then n / unit + 1 else n / unit

/-- The decimal `c · 10 ^ e` as a sum, unless it is too large. -/
def sum? (negative : Bool) (c : Nat) (e : Int) : Option Exact :=
  if e + digitCount c - 1 ≤ mostSumExponent then some (.finite negative c e) else none

/-- The sum nearest to `c · 10 ^ e`, unless it is too large. -/
def nearestSum? (negative : Bool) (c : Nat) (e : Int) : Option Exact :=
  let last := max leastSumExponent (e + digitCount c - precision)
  if c = 0 then some (.finite negative 0 (max leastSumExponent (min e mostSumExponent)))
  else if last ≤ e then sum? negative c e
  else if e + digitCount c < last then sum? negative 0 last
  else
    let q := roundedQuotient c (last - e).toNat
    if precision < digitCount q then sum? negative (q / 10) (last + 1) else sum? negative q last

/-- An exponent below all digits of a sum with the number `c · 10 ^ e`: whatever number with its
first digit below that exponent is added, the sum is rounded alike. -/
def negligible (c : Nat) (e : Int) : Int :=
  let places : Int := digitCount c - precision - 2
  e + min (-1) places

/-- The sum of the numbers `c · 10 ^ e` and `d · 10 ^ f`, where neither is zero and `f` is not
greater than `e`. -/
def addFinite? (n : Bool) (c : Nat) (e : Int) (m : Bool) (d : Nat) (f : Int) : Option Exact :=
  let least := negligible c e
  let (d, last) := if f + digitCount d - 1 < least then (1, least) else (d, f)
  let total := signed n (c * Nat.pow 10 (e - last).toNat) + signed m d
  if total = 0 then nearestSum? false 0 f else nearestSum? (total < 0) total.natAbs last

/-- The sum of a zero with exponent `e` and the number `d · 10 ^ f`, which gets zeros at its end
for the places of the other. -/
def addZero? (e : Int) (m : Bool) (d : Nat) (f : Int) : Option Exact :=
  let last := max (min e f) (f - precision - 1)
  nearestSum? m (d * Nat.pow 10 (f - last).toNat) last

/-- The sum of two decimals. -/
def Exact.add : Exact → Exact → Except Fault Exact
  | .notANumber _ true _, _ | _, .notANumber _ true _ => .error .notDecimal
  | .notANumber negative _ payload, _ => .ok (.notANumber negative false payload)
  | _, .notANumber negative _ payload => .ok (.notANumber negative false payload)
  | .infinite n, .infinite m => if n = m then .ok (.infinite n) else .error .notDecimal
  | .infinite n, _ => .ok (.infinite n)
  | _, .infinite m => .ok (.infinite m)
  | .finite n c e, .finite m d f =>
    let sum :=
      if c = 0 ∧ d = 0 then nearestSum? (n && m) 0 (min e f)
      else if c = 0 then addZero? e m d f
      else if d = 0 then addZero? f n c e
      else if e < f then addFinite? m d f n c e
      else addFinite? n c e m d f
    match sum with
    | some d => .ok d
    | none => .error .tooLargeForDecimal

/-- A decimal with the other sign. -/
def Exact.neg : Exact → Exact
  | .finite negative coefficient exponent => .finite (!negative) coefficient exponent
  | .infinite negative => .infinite (!negative)
  | .notANumber negative signalling payload => .notANumber (!negative) signalling payload

end Decimal

end SearchDsl
