import SearchDsl.Value.Identity
import SearchDsl.Value.View

/-!
# States

The state of a builder is a dictionary that is never changed by it: every operation makes a
new one from it.  `evolve` merges a dictionary into a state, `without` leaves names out,
`append` adds an item to the list under a name, and `getIn` and `updateIn` follow a path of
names through nested dictionaries.  `snapshot` is a copy of a state that shares nothing
with it.

A state may turn out to be no dictionary, and a path to be no sequence of names.  Each
operation says which fault that is.
-/

namespace SearchDsl

namespace State

/-- The state with the entries of `delta` filed in it. -/
def evolve (state delta : Value) : Except Fault Value := do
  return .dict ((← state.mapping).merge (← delta.mapping))

/-- The state with one value filed under `key`. -/
def set (state : Value) (key : Key) (v : Value) : Except Fault Value :=
  evolve state (.single key v)

/-- The names of those among some values that are keys. -/
def namesOf (keys : List Value) : List Name := (keys.filterMap Value.key?).map Key.name

/-- The state without the entries whose name is that of one of `keys`. -/
def without (state : Value) (keys : List Value) : Except Fault Value := do
  return .dict ((← state.entries).erase (namesOf keys))

@[simp]
theorem evolve_dict (es ds : Dict) (i j : Identity) :
  evolve (.dict es i) (.dict ds j) = .ok (.dict (es.merge ds))
  := rfl

@[simp]
theorem set_dict (es : Dict) (i : Identity) (key : Key) (v : Value) :
  set (.dict es i) key v = .ok (.dict (es.insert key v))
  := rfl

@[simp]
theorem without_dict (es : Dict) (i : Identity) (keys : List Value) :
  without (.dict es i) keys = .ok (.dict (es.erase (namesOf keys)))
  := rfl

/-- The state with `item` at the end of the list under `key`, which is made when it is absent
or false as a condition. -/
def append (state key item : Value) : Build Value := do
  let existing ← state.get key
  let es ← state.mapping
  let items ← (existing.orElse (.list [])).items
  return .dict (es.insert (← key.key) (.list (items ++ [item])))

/-- The value at the end of a path, or `default` as soon as a name is missing. -/
def getAt (default : Value) : (path : List Value) → Value → Except Fault Value
  | [], node => .ok node
  | key :: rest, .dict es _ => do
    match Entries.find? (← key.key).name es with
    | some child => getAt default rest child
    | none => return default
  | _ :: _, _ => .ok default

/-- The value at the end of the path that the items of `path` spell. -/
def getIn (state path default : Value) : Except Fault Value := do
  getAt default (← path.items) state

/-- The dictionary on the way of a path; whatever is no dictionary counts as an empty one. -/
def wayOf : Value → Value
  | .dict es i => .dict es i
  | _ => .empty

/-- The state with the value at the end of a path replaced by what `f` makes of it. -/
def updateIn (f : Callback) : (path : List Value) → (state : Value) → Build Value
  | [], _ => .fail .outOfRange
  | [key], state => do
    let es ← state.mapping
    let v ← f (← state.get key)
    return .dict (es.insert (← key.key) v)
  | key :: rest, state => do
    let child ← state.get key
    let es ← state.mapping
    let v ← updateIn f rest (wayOf child)
    return .dict (es.insert (← key.key) v)

/-- The state with `v` at the end of a path. -/
def assocIn (path : List Value) (state v : Value) : Build Value :=
  updateIn (fun _ => pure v) path state

/-- A copy of a state with all that it holds. -/
def snapshot (state : Value) : Value := state.copy

end State

end SearchDsl
