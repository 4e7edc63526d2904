import SearchDsl.State

/-!
# Suggestions

`Suggestions` are filed under names, each with the text it starts from and one kind of
suggester.  Filing under a name again replaces the suggestion in place, whatever its kind
was.
-/

namespace SearchDsl

/-- A kind of suggester. -/
inductive Suggester where
  | term
  | phrase
  | completion
  deriving DecidableEq

/-- The name of a kind of suggester in a request. -/
def Suggester.name : Suggester → String
  | .term => "term"
  | .phrase => "phrase"
  | .completion => "completion"

/-- The name of the text that a kind of suggester starts from. -/
def Suggester.textName : Suggester → String
  | .completion => "prefix"
  | _ => "text"

/-- A suggestion. -/
def Suggester.entry (s : Suggester) (text options : Value) : Value :=
  .dict [(s.textName, text), (s.name, options)]

/-- Named suggestions under construction. -/
structure Suggestions where
  state : Value

namespace Suggestions

/-- A change of the suggestions: one is filed under a name. -/
structure Step where
  suggester : Suggester
  name : Value
  text : Value
  options : Value

/-- Suggestions with the given state; a state that is false as a condition is empty. -/
def ofState (state : Value) : Suggestions := ⟨state.orEmpty⟩

/-- No suggestions. -/
def new : Suggestions := ⟨.empty⟩

/-- The suggestions as a value. -/
def toValue (s : Suggestions) : Value := .suggestions s.state

/-- What the suggestions build. -/
def build (s : Suggestions) : Value := .single "suggest" (State.snapshot s.state)

/-- The suggestions after a step. -/
def apply (s : Suggestions) (step : Step) : Except Fault Suggestions := do
  return ⟨← State.set s.state (← step.name.key) (step.suggester.entry step.text step.options)⟩

/-- The suggestions after some steps. -/
def run (s : Suggestions) (steps : List Step) : Except Fault Suggestions := steps.foldlM apply s

end Suggestions

end SearchDsl
