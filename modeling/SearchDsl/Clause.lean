import SearchDsl.Fragment
import SearchDsl.Value.Literal

/-!
# Query clauses

A `Leaf` is a query clause that contains no other, and a `Clause` is a leaf or a clause
around the fragment of a callback.  `Leaf.fragment` and `Clause.fragment` give the
dictionary `{kind: payload}` of a clause.  Clauses are not validated; a clause has no
fragment only when an argument does not offer the view that the fragment is made from.

Options that are merged into a payload may be any value that is false as a condition, and
then add nothing.
-/

namespace SearchDsl

/-- A query clause that contains no other. -/
inductive Leaf where
  | matchAll
  | matching (field value options : Value)
  | multiMatch (fields text options : Value)
  | phrase (field value : Value)
  | phraseStart (field value options : Value)
  | queryString (text options : Value)
  | term (field value : Value)
  | terms (field values : Value)
  | range (field conditions : Value)
  | existing (field : Value)
  | startingWith (field value : Value)
  | wildcard (field value : Value)
  | fuzzy (field value options : Value)
  | ids (values : Value)
  | regexp (field value options : Value)
  | geoDistance (field center options : Value)
  | geoBoundingBox (field options : Value)
  | geoPolygon (field options : Value)
  | script (options : Value)
  | percolate (options : Value)

/-- A query clause that the factory and the root of a request have in common. -/
inductive Clause where
  | leaf (l : Leaf)
  | nested (path : Value) (inner : Callback) (options : Value)
  | constantScore (inner : Callback) (options : Value)
  | scriptScore (inner : Callback) (script options : Value)

namespace Clause

/-- The fragment `{kind: {field: value}}`. -/
def onField (kind : String) (field value : Value) : Except Fault Value := do
  return .single kind (.single (← field.key) value)

/-- The value of a field as it is, or under `name` with the options where there are any. -/
def briefOrFull (name : String) (value options : Value) : Except Fault Value :=
  if options.truthy then Value.extend [(name, value)] options else .ok value

/-! ### Payloads with recognised options -/

/-- The payload of a vector search.  Of the options `k` and `num_candidates` are always
written, `filter` and `boost` where they are true, and `similarity` where it is not null. -/
def knnPayload (field vector options : Value) : Build Value := do
  let vector ← vector.toList
  let k ← options.get (.str "k")
  let candidates ← options.get (.str "num_candidates")
  let start : Dict := [("field", .str field.display), ("query_vector", vector), ("k", k),
    ("num_candidates", candidates)]
  let filter ← options.whenTrue "filter"
  let boost ← options.whenTrue "boost"
  return .dict (start ++ filter ++ boost ++ (← options.whenPresent "similarity"))

/-- The language of a script, which is the default one unless it is given.  A function cannot be
asked for it together with the default. -/
def scriptLanguage : Value → Except Fault Value
  | .dict given _ => .ok ((Entries.find? "lang" given).getD (.str "painless"))
  | v => .error (v.lacking "get")

/-- A script.  Its parameters are written where they are true. -/
def scriptPayload (options : Value) : Build Value := do
  let source ← options.get (.str "source")
  let start : Dict := [("source", source), ("lang", ← scriptLanguage options)]
  return .dict (start ++ (← options.whenTrue "params"))

/-- The fragment of a vector search inside a query. -/
def knn (field vector options : Value) : Build Value := do
  return .single "knn" (← knnPayload field vector options)

end Clause

open Clause in
/-- The fragment of a leaf. -/
def Leaf.fragment : Leaf → Build Value
  | .matchAll => pure (.single "match_all" .empty)
  | .matching field value options => do
    onField "match" field (← briefOrFull "query" value options)
  | .multiMatch fields text options => do
    let fields ← fields.listOrText
    return .single "multi_match" (← Value.withOptions [("fields", fields), ("query", text)] options)
  | .phrase field value => onField "match_phrase" field value
  | .phraseStart field value options => do
    onField "match_phrase_prefix" field (← briefOrFull "query" value options)
  | .queryString text options => do
    return .single "query_string" (← Value.withOptions [("query", text)] options)
  | .term field value => onField "term" field value
  | .terms field values => do onField "terms" field (← values.listOrText)
  | .range field conditions => do onField "range" field (← conditions.toDict)
  | .existing field => pure (.single "exists" (.single "field" field))
  | .startingWith field value => onField "prefix" field value
  | .wildcard field value => onField "wildcard" field value
  | .fuzzy field value options => do
    onField "fuzzy" field (← Value.withOptions [("value", value)] options)
  | .ids values => do return .single "ids" (.single "values" (← values.listOrText))
  | .regexp field value options => do
    onField "regexp" field (← briefOrFull "value" value options)
  | .geoDistance field center options => do
    return .single "geo_distance" (← Value.withOptions [(field.display, center)] options)
  | .geoBoundingBox field options =>
    pure (.single "geo_bounding_box" (.single field.display options))
  | .geoPolygon field options => pure (.single "geo_polygon" (.single field.display options))
  | .script options => do
    let script ← scriptPayload options
    return .single "script" (.dict (("script", script) :: (← options.whenTrue "boost")))
  | .percolate options => do return .single "percolate" (← options.toDict)

namespace Clause

/-- The fragment of a clause.  A callback is called with the factory of clauses, and its
result is absorbed before the options are looked at. -/
def fragment : Clause → Build Value
  | .leaf l => l.fragment
  | .nested path inner options => do
    let query ← inner.fragment .clauses
    return .single "nested" (← Value.withOptions [("path", path), ("query", query)] options)
  | .constantScore inner options => do
    let filter ← inner.fragment .clauses
    return .single "constant_score" (← Value.withOptions [("filter", filter)] options)
  | .scriptScore inner script options => do
    let query ← inner.fragment .clauses
    let start : Dict := [("query", query), ("script", ← scriptPayload script)]
    let minScore ← options.orEmpty.whenPresent "min_score"
    let boost ← options.orEmpty.whenTrue "boost"
    return .single "script_score" (.dict (start ++ minScore ++ boost))

/-- The fragment that `inner` makes of an empty boolean query. -/
def compound (inner : Callback) : Build Value := inner.fragment (.boolQuery .empty)

end Clause

end SearchDsl
