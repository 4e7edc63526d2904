import SearchDsl.Value.Basic

/-!
# Identities

What may happen to what a value holds, with no regard to what the value is:
`Value.traverse` takes what has an identity (`Value.identity?`) one by one, from the outside,
and either replaces it or goes on with what it holds and gives it another identity.
`Value.copy` is a copy of a value with all that it holds, in which what was one list or
dictionary is one copy.
-/

namespace SearchDsl

/-- The identity of a copy; the copy of what has just been made has just been made. -/
def Identity.copied : Identity → Identity
  | .new => .new
  | identity => .copyOf identity

/-- Two identities are known to be of one list, dictionary or object. -/
def Identity.isOneWith : Identity → Identity → Bool
  | .known n, .known m => n == m
  | _, _ => false

namespace Value

/-- The identity that tells a value apart from others with the same contents. -/
def identity? : Value → Option Identity
  | .foreign _ identity _ => some identity
  | .function _ _ _ identity => some identity
  | .list _ identity => some identity
  | .dict _ identity => some identity
  | .encoding _ identity => some identity
  | .request _ _ identity => some identity
  | .boolQuery _ identity => some identity
  | .aggregations _ _ identity => some identity
  | .suggestions _ identity => some identity
  | .indexConfig _ identity => some identity
  | .bulk _ _ identity => some identity
  | .multiSearch _ _ identity => some identity
  | _ => none

/-- Two values are known to be one list, dictionary or object. -/
def isOneWith (v w : Value) : Bool :=
  match v.identity?, w.identity? with
  | some i, some j => i.isOneWith j
  | _, _ => false

variable {m : Type → Type} [Monad m]

mutual

/-- A value with everything in it that has an identity replaced by what `replace` gives for it,
or else with the identity that `mark` gives for its own.  Functions keep what they hold. -/
def traverse (replace : Value → Identity → Option Value) (mark : Identity → m Identity)
    (v : Value) : m Value := do
  match v.identity?.bind (replace v) with
  | some w => return w
  | none =>
    match v with
    | .foreign name identity fault? => return .foreign name (← mark identity) fault?
    | .function param body scope identity => return .function param body scope (← mark identity)
    | .list items identity =>
      let identity ← mark identity
      return .list (← traverseAll replace mark items) identity
    | .tuple items => return .tuple (← traverseAll replace mark items)
    | .dict entries identity =>
      let identity ← mark identity
      return .dict (← traverseEntries replace mark entries) identity
    | .held contents => return .held (← traverse replace mark contents)
    | .query kind params => return .query kind (← traverseEntries replace mark params)
    | .scoreFunction kind params =>
      return .scoreFunction kind (← traverseEntries replace mark params)
    | .search parts indices =>
      let parts ← traverseEntries replace mark parts
      return .search parts (← traverseNames replace mark indices)
    | .encoding lineEncoding identity => return .encoding lineEncoding (← mark identity)
    | .operation act header body =>
      let act ← traverse replace mark act
      let header ← traverse replace mark header
      return .operation act header (← traverse replace mark body)
    | .request state withQuery identity =>
      let identity ← mark identity
      return .request (← traverse replace mark state) withQuery identity
    | .boolQuery state identity =>
      let identity ← mark identity
      return .boolQuery (← traverse replace mark state) identity
    | .aggregations nodes last identity =>
      let identity ← mark identity
      let nodes ← traverse replace mark nodes
      return .aggregations nodes (← traverse replace mark last) identity
    | .suggestions state identity =>
      let identity ← mark identity
      return .suggestions (← traverse replace mark state) identity
    | .indexConfig state identity =>
      let identity ← mark identity
      return .indexConfig (← traverse replace mark state) identity
    | .bulk operations lineEncoding identity =>
      let identity ← mark identity
      let operations ← traverseAll replace mark operations
      return .bulk operations (← traverse replace mark lineEncoding) identity
    | .multiSearch searches lineEncoding identity =>
      let identity ← mark identity
      let searches ← traverseAll replace mark searches
      return .multiSearch searches (← traverse replace mark lineEncoding) identity
    | v => return v

/-- A key with everything in it treated so. -/
def traverseKey (replace : Value → Identity → Option Value) (mark : Identity → m Identity)
    (key : Key) : m Key := do
  match key with
  | .object v => return .object (← traverse replace mark v)
  | key => return key

/-- Items with everything in them treated so. -/
def traverseAll (replace : Value → Identity → Option Value) (mark : Identity → m Identity)
    (items : List Value) : m (List Value) := do
  match items with
  | [] => return []
  | item :: items =>
    let item ← traverse replace mark item
    return item :: (← traverseAll replace mark items)

/-- Entries with everything in their keys and values treated so. -/
def traverseEntries (replace : Value → Identity → Option Value) (mark : Identity → m Identity)
    (entries : List (Key × Value)) : m (List (Key × Value)) := do
  match entries with
  | [] => return []
  | (key, v) :: entries =>
    let key ← traverseKey replace mark key
    let v ← traverse replace mark v
    return (key, v) :: (← traverseEntries replace mark entries)

/-- The names of indices with everything in them treated so. -/
def traverseNames (replace : Value → Identity → Option Value) (mark : Identity → m Identity)
    (names : Option (List Value)) : m (Option (List Value)) := do
  match names with
  | none => return none
  | some names => return some (← traverseAll replace mark names)

end

/-- A value in which everything has the identity that `mark` gives for its own. -/
def mapIdentities (mark : Identity → Identity) (v : Value) : Value :=
  (v.traverse (fun _ _ => none) fun identity => (mark identity : Id Identity) : Id Value)

/-- A function as it is. -/
def function? : Value → Option Value
  | .function param body scope identity => some (.function param body scope identity)
  | _ => none

/-- A copy of a value with all that it holds, where functions are shared. -/
def copy (v : Value) : Value :=
  (v.traverse (fun v _ => v.function?) fun identity => (identity.copied : Id Identity) : Id Value)

end Value

end SearchDsl
