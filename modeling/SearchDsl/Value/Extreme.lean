import SearchDsl.Value.Number

/-!
# Extremes of decimals

The greater or the lesser of two decimals, rounded as a sum is.  A value that is no number
gives way to a number, and a signalling one is a fault.  Of two decimals of one value the
negative one is less, and else the one that is written with more places, or with fewer where
both are negative.
-/

namespace SearchDsl

namespace Decimal

/-- The first of two decimals of one value comes before the second. -/
def Exact.writtenBefore : Exact → Exact → Bool
  | .finite n _ e, .finite m _ f => if n = m then decide (e < f) != n else n
  | _, _ => false

/-- The first of two decimals comes before the second. -/
def Exact.before (d e : Exact) : Except Fault Bool := do
  if ← Number.less (.decimal d) (.decimal e) then return true
  if ← Number.less (.decimal e) (.decimal d) then return false
  return d.writtenBefore e

/-- A decimal, rounded as a sum is. -/
def Exact.rounded : Exact → Except Fault Exact
  | .finite negative c e =>
    match nearestSum? negative c e with
    | some d => .ok d
    | none => .error .tooLargeForDecimal
  | d => .ok d

/-- The greater of two decimals, or the lesser one. -/
def Exact.extreme (greater : Bool) : Exact → Exact → Except Fault Exact
  | .notANumber _ true _, _ | _, .notANumber _ true _ => .error .notDecimal
  | .notANumber _ _ _, .finite n c e => (Exact.finite n c e).rounded
  | .notANumber _ _ _, .infinite n => .ok (.infinite n)
  | d, .notANumber _ _ _ => d.rounded
  | d, e => do
    let first ← if greater then d.before e else e.before d
    (if first then e else d).rounded

end Decimal

namespace Value

/-- The decimal that a value is or counts as. -/
def toDecimal : Value → Except Fault Decimal.Exact
  | .decimal d => .ok d
  | .int n => .ok (Number.decimalOfInt n)
  | .bool b => .ok (Number.decimalOfInt b.toInt)
  | _ => .error .wrongType

end Value

end SearchDsl
