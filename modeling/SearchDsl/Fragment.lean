import SearchDsl.Search.Dictionary
import SearchDsl.State

/-!
# Fragments

A fragment is a value in the form in which it stands in a request.  The callback of a
composition may return a dictionary, a query object or one of the builders, and
`Fragment.absorb` and `Fragment.entriesOf` turn its result into a fragment.

A callback that returns null is taken at its word: the null becomes the fragment, and a
warning is reported.  `Callback.choose` composes conditionally.
-/

namespace SearchDsl

namespace Fragment

/-- The root query in the state of a request, or null. -/
def rootQuery (state : Value) : Build Value := state.get (.str "query")

/-- The boolean query with the given payload. -/
def bool (payload : Value) : Value := .single "bool" payload

/-- The fragment that the result of a callback stands for. -/
def absorb : Value → Build Value
  | .null => do
    Build.warn
    return .null
  | .query name params => Search.queryDictionary name params
  | .request state _ _ => rootQuery state
  | .boolQuery payload _ => pure (bool payload)
  | v => if v.holdsFunction "to_fragment" then .fail .wrongType else pure v

/-- The named entries that the result of the callback of `operation` stands for. -/
def entriesOf (operation : String) : Value → Except Fault Value
  | .aggregations nodes _ _ => .ok nodes
  | .suggestions state _ => .ok state
  | .dict entries i => .ok (.dict entries i)
  | v =>
    if v.holdsFunction "to_map" then .error .wrongType else .error (.notComposable operation v.kind)

end Fragment

namespace Callback

/-- What `f` makes of `argument`, as a fragment. -/
def fragment (f : Callback) (argument : Value) : Build Value := do
  Fragment.absorb (← f argument)

/-- Calls `positive` when the condition is true, `negative` when it is false and there is one,
and gives null otherwise. -/
def choose (condition : Value) (positive : Callback) (negative : Option Callback)
    (argument : Value) : Build Value :=
  if condition.truthy then positive argument
  else
    match negative with
    | some f => f argument
    | none => pure .null

end Callback

end SearchDsl
