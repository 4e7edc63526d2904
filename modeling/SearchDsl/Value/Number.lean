import SearchDsl.Decimal.Sum
import SearchDsl.Key

/-!
# Numbers

The values that can be counted with: integers, doubles and decimals, and truth values as zero
and one.  Integers go with both others, but doubles and decimals do not go together.  A sum
of integers is exact, and any other sum is rounded as its kind demands.
-/

namespace SearchDsl

/-- A number. -/
inductive Number where
  | int (n : Int)
  | float (x : Float)
  | decimal (d : Decimal.Exact)

namespace Number

/-- The number that a value is. -/
def ofValue? : Value → Option Number
  | .bool b => some (.int b.toInt)
  | .int n => some (.int n)
  | .float x => some (.float x)
  | .decimal d => some (.decimal d)
  | _ => none

/-- The number as a value. -/
def toValue : Number → Value
  | .int n => .int n
  | .float x => .float x
  | .decimal d => .decimal d

/-- The number itself, or the integer zero for any zero. -/
def orZero (a : Number) : Number := if a.toValue.truthy then a else .int 0

/-- The double nearest to an integer. -/
def doubleOfInt (n : Int) : Except Fault Float :=
  let x := Decimal.nearestFloat n.natAbs 0
  if x.isInf then .error .tooLargeForDouble else .ok (if n < 0 then -x else x)

/-- An integer as a decimal. -/
def decimalOfInt (n : Int) : Decimal.Exact := .finite (n < 0) n.natAbs 0

/-- The sum of two numbers. -/
def add : Number → Number → Except Fault Number
  | .int n, .int m => .ok (.int (n + m))
  | .float x, .float y => .ok (.float (x + y))
  | .int n, .float y => do return .float ((← doubleOfInt n) + y)
  | .float x, .int m => do return .float (x + (← doubleOfInt m))
  | .decimal d, .decimal e => decimal <$> d.add e
  | .int n, .decimal e => decimal <$> (decimalOfInt n).add e
  | .decimal d, .int m => decimal <$> d.add (decimalOfInt m)
  | .float _, .decimal _ | .decimal _, .float _ => .error .wrongType

/-- The number with the other sign. -/
def neg : Number → Number
  | .int n => .int (-n)
  | .float x => .float (-x)
  | .decimal d => .decimal d.neg

/-- The difference of two numbers. -/
def sub (a b : Number) : Except Fault Number := a.add b.neg

/-- The name of a number. -/
def name : Number → Name
  | .int n => .ofInt n
  | .float x => .ofFloat x
  | .decimal d => Value.name (.decimal d)

/-- The number is a decimal without a place in the order. -/
def isUnordered : Number → Bool
  | .decimal (.notANumber _ _ _) => true
  | _ => false

/-- Two numbers are in no order where one of them is a decimal. -/
def unordered : Number → Number → Bool
  | .decimal d, .float x | .float x, .decimal d => (decimal d).isUnordered || x.isNaN
  | a, b => a.isUnordered || b.isUnordered

/-- A number is less than another one. -/
def less (a b : Number) : Except Fault Bool :=
  if a.unordered b then .error .notDecimal
  else .ok ((a.name.before? b.name).getD false)

end Number

end SearchDsl
