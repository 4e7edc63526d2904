/-!
# Faults

The causes for which composing or writing a request fails.  Most are faults of the values
that an operation is given; the last three belong to this library and carry the message
that `Fault.message?` words.
-/

namespace SearchDsl

/-- The cause of a failure. -/
inductive Fault where
  /-- An operation does not apply to a value of this kind, or not with these arguments. -/
  | wrongType
  /-- A value lacks the member that was asked for. -/
  | noSuchMember
  /-- A value is of the right kind but does not denote anything here. -/
  | badValue
  /-- A text does not denote a decimal, or decimals have no sum or no order. -/
  | notDecimal
  /-- A number is too large for a double. -/
  | tooLargeForDouble
  /-- A number is too large for a decimal. -/
  | tooLargeForDecimal
  /-- A position lies outside a sequence. -/
  | outOfRange
  /-- A mapping does not have the key. -/
  | missingKey
  /-- Octets are not well-formed text. -/
  | malformedText
  /-- A part of a search is of no kind that a search object knows. -/
  | unknownKind
  /-- A search cannot be ordered like that. -/
  | unorderable
  /-- A value cannot be encoded. -/
  | unencodable
  /-- Calls are nested too deeply. -/
  | tooDeep
  /-- The callback of `operation` returned a value of kind `kind`, which is no map of entries. -/
  | notComposable (operation kind : String)
  /-- A child aggregation was given before any aggregation to hold it. -/
  | nothingToNestUnder
  /-- A line cannot be written; `line` is its literal. -/
  | unwritable (line : String)
  deriving DecidableEq

/-- The message of a fault of this library. -/
def Fault.message? : Fault → Option String
  | .notComposable operation kind => some (operation ++ " 回调必须返回构建器或字典，实际返回 " ++ kind)
  | .nothingToNestUnder => some "sub_agg 之前必须至少添加一个聚合"
  | .unwritable line => some ("无法序列化 NDJSON 行: " ++ line)
  | _ => none

end SearchDsl
