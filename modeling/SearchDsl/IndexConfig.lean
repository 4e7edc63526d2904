import SearchDsl.State

/-!
# Index configurations

An `IndexConfig` is the body with which an index is created: mappings, settings and named
aliases.  Mappings and settings are replaced as a whole, and an alias replaces the one of
the same name.
-/

namespace SearchDsl

/-- An index configuration under construction. -/
structure IndexConfig where
  state : Value

namespace IndexConfig

/-- A change of an index configuration. -/
inductive Step where
  | mappings (value : Value)
  | settings (value : Value)
  | alias (name options : Value)

/-- The configuration with the given state; a state that is false as a condition is empty. -/
def ofState (state : Value) : IndexConfig := ⟨state.orEmpty⟩

/-- The empty configuration. -/
def new : IndexConfig := ⟨.empty⟩

/-- The configuration as a value. -/
def toValue (c : IndexConfig) : Value := .indexConfig c.state

/-- What the configuration builds. -/
def build (c : IndexConfig) : Value := State.snapshot c.state

/-- The configuration after a step. -/
def apply (c : IndexConfig) : Step → Build IndexConfig
  | .mappings value => do return ⟨← State.set c.state "mappings" value⟩
  | .settings value => do return ⟨← State.set c.state "settings" value⟩
  | .alias name options => do
    let options ← options.orEmpty.toDict
    return ⟨← State.assocIn [.str "aliases", name] c.state options⟩

/-- The configuration after some steps. -/
def run (c : IndexConfig) (steps : List Step) : Build IndexConfig := steps.foldlM apply c

end IndexConfig

end SearchDsl
