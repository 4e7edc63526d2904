import SearchDsl.Search.Conjunction
import SearchDsl.Search.Hit

/-!
# Refining searches

A search is refined by changing one part of a copy of it.  Most refinements replace the part;
highlighting, suggestions and vector searches are added to those that are there, and a
query is combined with the one that is there.

Each refinement here changes the parts of a search that has been copied.  The arguments
are looked at afterwards, unless it is said otherwise.
-/

namespace SearchDsl

namespace Search

/-- A part of a search, or what there is without it. -/
def partOr (name : String) (other : Value) (parts : Dict) : Value := (parts.find? name).getD other

/-- The entries of a part that is filed under names. -/
def partEntries (name : String) (parts : Dict) : Except Fault Dict :=
  match partOr name .empty parts with
  | .dict entries _ => .ok entries
  | _ => .error .wrongType

/-- The entry of `name` unless the value is null. -/
def given (name : String) (v : Value) : Dict := if v.isNull then [] else [(.text name, v)]

/-! ### Order and fields -/

/-- What a search is ordered by: a dictionary says it itself, and a name with a minus stands for
the reverse order. -/
def orderOf : Value → Except Fault Value
  | .dict entries i => .ok (.dict entries i)
  | v =>
    match v.display.toList with
    | '-' :: field =>
      if String.ofList field = "_score" then .error .unorderable
      else .ok (.single (String.ofList field) (.single "order" (.str "desc")))
    | field => .ok (.str (String.ofList field))

/-- Orders the hits. -/
def sortBy (keys : List Value) (parts : Dict) : Except Fault Dict := do
  return setPart "sort" (.list (← keys.mapM orderOf)) parts

mutual

/-- The names of fields as texts, also those in dictionaries. -/
def fieldTexts : Value → Except Fault Value
  | .dict entries _ => do return .dict (← fieldTextsIn entries)
  | .str s => .ok (.str s)
  | .action a => .ok (.str (Value.action a).display)
  | v => do return .list ((← v.items).map fun item => .str item.display)

/-- Entries with the names of fields as texts. -/
def fieldTextsIn : List (Key × Value) → Except Fault (List (Key × Value))
  | [] => .ok []
  | (key, v) :: entries => do
    let texts ← fieldTexts v
    return (key, texts) :: (← fieldTextsIn entries)

end

/-- The selection of fields after some options: a null takes an option away. -/
def selectWith (selection : Dict) : Dict → Except Fault Dict
  | [] => .ok selection
  | (key, v) :: options => do
    if v.isNull then selectWith (selection.erase [key.name]) options
    else selectWith (selection.insert key (← fieldTexts v)) options

/-- Selects fields, either all at once or by options. -/
def selectFields (fields : Value) (options : Dict) (parts : Dict) : Except Fault Dict := do
  if fields.truthy && !options.isEmpty then .error .badValue
  match fields, partOr "_source" .null parts with
  | .bool b, _ => return select (.bool b)
  | .null, .dict selection _ => return select (.dict (← selectWith selection options))
  | .null, _ =>
    if options.isEmpty then return parts
    else return select (.dict (← selectWith [] options))
  | fields, _ => return select (← fieldTexts fields)
where
  /-- The parts with a selection. -/
  select (selection : Value) : Dict := setPart "_source" selection parts

/-- Computes fields; a script may be given as a text. -/
def computeFields (scripts : Dict) (parts : Dict) : Except Fault Dict := do
  let scripts : Dict := scripts.map fun e =>
    match e.2.text? with
    | some _ => (e.1, .single "script" e.2)
    | none => e
  return setPart "script_fields" (.dict ((← partEntries "script_fields" parts).merge scripts)) parts

/-! ### Highlighting and grouping -/

/-- The highlighted fields of a search and the options of highlighting. -/
def highlighted (parts : Dict) : Value × Dict :=
  match partOr "highlight" .empty parts with
  | .dict ((_, fields) :: options) _ => (fields, options)
  | _ => (.empty, [])

/-- The highlighting with the given fields and options. -/
def highlightingOf (fields : Value) (options : Dict) : Value :=
  .dict ((.text "fields", fields) :: options)

/-- Highlights fields, each with the same options. -/
def highlight (fields : List Value) (options : Dict) (parts : Dict) : Except Fault Dict := do
  let (present, further) := highlighted parts
  let added : Dict := fields.map fun field => (.text field.display, .dict options)
  match present, added with
  | _, [] => return parts
  | .dict present _, added =>
    return setPart "highlight" (highlightingOf (.dict (Entries.merge present added)) further) parts
  | _, _ => .error .wrongType

/-- Sets options of highlighting. -/
def highlightOptions (options : Dict) (parts : Dict) : Dict :=
  let (present, further) := highlighted parts
  setPart "highlight" (highlightingOf present (further.merge options)) parts

/-- Groups hits by a field; what is false as a condition is left out. -/
def collapse (field innerHits concurrency : Value) (parts : Dict) : Dict :=
  let whenTrue (name : String) (v : Value) : Dict := if v.truthy then [(.text name, v)] else []
  let grouping : Dict :=
    if field.isNull then []
    else (.text "field", .str field.display) :: (whenTrue "inner_hits" innerHits ++
      whenTrue "max_concurrent_group_searches" concurrency)
  setPart "collapse" (.dict grouping) parts

/-- Sets how rankings are combined. -/
def rank (fusion : Value) (parts : Dict) : Dict :=
  let ranking : Dict :=
    match fusion with
    | .null | .bool false => []
    | .bool true => [("rrf", .empty)]
    | v => [("rrf", v)]
  setPart "rank" (.dict ranking) parts

/-! ### Vector searches -/

/-- A vector search; the vector or what builds it is given, and not both. -/
structure VectorSearch where
  field : Value
  count : Value
  candidates : Value
  vector : Value
  vectorBuilder : Value
  boost : Value
  filter : Value
  similarity : Value
  innerHits : Value

/-- A filter of a vector search as it is written. -/
def filterOf : Value → Except Fault Value
  | .query kind params => queryDictionary kind params
  | v => .ok v

/-- A vector search as a dictionary. -/
def VectorSearch.dictionary (s : VectorSearch) : Except Fault Value := do
  if s.vector.isNull = s.vectorBuilder.isNull then .error .badValue
  let start : Dict := [("field", .str s.field.display), ("k", s.count),
    ("num_candidates", s.candidates)]
  return .dict (start ++ given "query_vector" s.vector ++
    given "query_vector_builder" s.vectorBuilder ++ given "boost" s.boost ++
    given "filter" (← filterOf s.filter) ++ given "similarity" s.similarity ++
    given "inner_hits" s.innerHits)

/-- Adds a vector search. -/
def addVector (s : VectorSearch) (parts : Dict) : Except Fault Dict := do
  let present ← (partOr "knn" (.list []) parts).items
  return setPart "knn" (.list (present ++ [← s.dictionary])) parts

/-! ### Suggestions -/

/-- A suggestion under a name, from a text or an expression. -/
structure Suggestion where
  name : Value
  text : Value
  expression : Value
  options : Dict

/-- A suggestion starts from one of the two, and only a completion from an expression. -/
def Suggestion.check (s : Suggestion) : Except Fault Unit :=
  let completes := s.options.names.contains "completion"
  if s.text.isNull && s.expression.isNull then .error .badValue
  else if s.text.truthy && s.expression.truthy then .error .badValue
  else if s.expression.truthy && !completes then .error .badValue
  else .ok ()

/-- What a suggestion starts from, unless that is false as a condition. -/
def Suggestion.start? (s : Suggestion) : Option Dict :=
  if s.expression.truthy then some [("regex", s.expression)]
  else if s.text.truthy then
    if s.options.names.contains "completion" then some [("prefix", s.text)]
    else some [("text", s.text)]
  else none

/-- Adds a suggestion.  One that starts from nothing changes the one of its name that is there,
in place. -/
def addSuggestion (s : Suggestion) (parts : Dict) : Build Dict := do
  let present ← partEntries "suggest" parts
  let key ← s.name.key
  let suggestion ←
    match s.start?, present.find? key.name with
    | some start, _ => pure (.dict (Entries.merge start s.options))
    | none, some (.dict start identity) => do
      let suggestion : Value := .dict (Entries.merge start s.options) identity
      Build.change identity suggestion
      pure suggestion
    | none, some v => .fail (v.lacking "update")
    | none, none => .fail .missingKey
  return setPart "suggest" (.dict (present.insert key suggestion)) parts

/-! ### Queries -/

/-- The query that arguments denote: an object, a dictionary, or a name with parameters. -/
def queryOf (nameOrQuery : Value) (params : Dict) : Except Fault Value :=
  match nameOrQuery, params with
  | v, [] => arrange (.one .query) v
  | .dict _ _, _ | .query _ _, _ => .error .badValue
  | v, params => do ofKind (← v.key).word (.dict params)

/-- Combines a query with the one under a name. -/
def addQuery (name : String) (query : Value) (parts : Dict) : Except Fault Dict := do
  match parts.find? name with
  | none => return setPart name query parts
  | some present => return setPart name (← both present query) parts

/-- The query that filters by another one. -/
def filteredBy (query : Value) : Value := boolOf "filter" [query]

/-! ### Indices and other parameters -/

/-- The names of indices that a value adds. -/
def indexNames : Value → List Value
  | .str s => [.str s]
  | .action a => [.action a]
  | .list names _ => names
  | .tuple names => names
  | _ => []

/-- The indices of a search after some were added; adding none takes all of them away. -/
def addIndices (indices : Option (List Value)) (added : List Value) : Option (List Value) :=
  if added.isEmpty then none else some (indices.getD [] ++ added.flatMap indexNames)

/-- Sets other parameters. -/
def setParameters (params : Dict) (parts : Dict) : Dict :=
  let params : Dict :=
    match params.find? "from_" with
    | some v => Entries.insert (.text "from") v (params.erase ["from_"])
    | none => params
  ordered (parts.merge params)

end Search

end SearchDsl
