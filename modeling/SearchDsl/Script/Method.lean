import SearchDsl.Script.Data
import SearchDsl.Script.Refinement

/-!
# Operations by name

The operations that the objects of this library offer under a name.  `Value.method?` is
the operation of a value with the given name, if it has one; the tables it consults give
for each kind of object the step that an operation stands for.
-/

namespace SearchDsl

namespace Script

/-! ### Steps by name -/

/-- The clauses that the factory and the root of a request have in common. -/
def clauseForm? (name : String) : Option (Form Clause) :=
  let leaf (required optional : List String) (make : Bound → Leaf) : Option (Form Clause) :=
    some (.of required optional fun b => .leaf (make b))
  match name with
  | "match_all" => leaf [] [] fun _ => .matchAll
  | "match" => leaf ["field", "value"] ["options"] fun b =>
      .matching (b.value "field") (b.value "value") (b.value "options")
  | "multi_match" => leaf ["fields", "query"] ["options"] fun b =>
      .multiMatch (b.value "fields") (b.value "query") (b.value "options")
  | "match_phrase" => leaf ["field", "value"] [] fun b =>
      .phrase (b.value "field") (b.value "value")
  | "match_phrase_prefix" => leaf ["field", "value"] ["options"] fun b =>
      .phraseStart (b.value "field") (b.value "value") (b.value "options")
  | "query_string" => leaf ["query"] ["options"] fun b =>
      .queryString (b.value "query") (b.value "options")
  | "term" => leaf ["field", "value"] [] fun b => .term (b.value "field") (b.value "value")
  | "terms" => leaf ["field", "values"] [] fun b => .terms (b.value "field") (b.value "values")
  | "range" => leaf ["field", "conditions"] [] fun b =>
      .range (b.value "field") (b.value "conditions")
  | "exists" => leaf ["field"] [] fun b => .existing (b.value "field")
  | "prefix" => leaf ["field", "value"] [] fun b =>
      .startingWith (b.value "field") (b.value "value")
  | "wildcard" => leaf ["field", "value"] [] fun b =>
      .wildcard (b.value "field") (b.value "value")
  | "fuzzy" => leaf ["field", "value"] ["options"] fun b =>
      .fuzzy (b.value "field") (b.value "value") (b.value "options")
  | "ids" => leaf ["values"] [] fun b => .ids (b.value "values")
  | "regexp" => leaf ["field", "value"] ["options"] fun b =>
      .regexp (b.value "field") (b.value "value") (b.value "options")
  | "geo_distance" => leaf ["field", "center"] ["options"] fun b =>
      .geoDistance (b.value "field") (b.value "center") (b.value "options")
  | "geo_bounding_box" => leaf ["field", "options"] [] fun b =>
      .geoBoundingBox (b.value "field") (b.value "options")
  | "geo_polygon" => leaf ["field", "options"] [] fun b =>
      .geoPolygon (b.value "field") (b.value "options")
  | "script" => leaf ["options"] [] fun b => .script (b.value "options")
  | "percolate" => leaf ["options"] [] fun b => .percolate (b.value "options")
  | "nested" => some (.of ["path", "fn"] ["options"] fun b =>
      .nested (b.value "path") (b.callback "fn") (b.value "options"))
  | "constant_score" => some (.of ["fn"] ["options"] fun b =>
      .constantScore (b.callback "fn") (b.value "options"))
  | "script_score" => some (.of ["fn", "script"] ["options"] fun b =>
      .scriptScore (b.callback "fn") (b.value "script") (b.value "options"))
  | _ => none

/-- The steps of a boolean query. -/
def boolForm? (name : String) : Option (Form BoolQuery.Step) :=
  let clause (o : Occurrence) : Option (Form BoolQuery.Step) :=
    some (.of ["fn"] [] fun b => .clause o (b.callback "fn"))
  match name with
  | "must" => clause .must
  | "should" => clause .should
  | "must_not" => clause .mustNot
  | "filter" => clause .filter
  | "minimum_should_match" => some (.of ["value"] [] fun b => .minimumShouldMatch (b.value "value"))
  | _ => none

/-- The parameters of a search. -/
def parameter? : String → Option Parameter
  | "from_" => some .start
  | "to" => some .stop
  | "size" => some .size
  | "timeout" => some .timeout
  | "track_scores" => some .trackScores
  | "explain" => some .explain
  | "min_score" => some .minScore
  | "version" => some .version
  | "seq_no_primary_term" => some .seqNoPrimaryTerm
  | "track_total_hits" => some .trackTotalHits
  | _ => none

/-- The steps of a request that are no clauses and no parameters. -/
def requestPartForm? (name : String) : Option (Form Request.Step) :=
  match name with
  | "bool" => some (.of [] [] fun _ => .newBool)
  | "knn" => some (.of ["field", "query_vector", "options"] [] fun b =>
      .knn (b.value "field") (b.value "query_vector") (b.value "options"))
  | "sort" => some ⟨{ required := ["field"], optional := [("direction", .str "asc")] }, fun b =>
      .sort (b.value "field") (b.value "direction")⟩
  | "source" => some (.of ["fields"] [] fun b => .source (b.value "fields"))
  | "highlight" => some (.of ["fields"] ["options"] fun b =>
      .highlight (b.value "fields") (b.value "options"))
  | "aggs" => some (.of ["fn"] [] fun b => .aggs (b.callback "fn"))
  | "suggest" => some (.of ["fn"] [] fun b => .suggest (b.callback "fn"))
  | _ => none

/-- The steps of a request. -/
def requestForm? (name : String) : Option (Form Request.Step) :=
  ((clauseForm? name).map (·.map .query)).or <|
    ((boolForm? name).map (·.map .bool)).or <|
      ((parameter? name).map fun p => .of ["value"] [] fun b => .set p (b.value "value")).or <|
        requestPartForm? name

/-- The steps of aggregations. -/
def aggregationForm? (name : String) : Option (Form Aggregations.Step) :=
  let node (b : Bound) : Aggregations.Step :=
    .add (b.value "name") (.onField name (b.value "field") (b.value "options"))
  if ["date_histogram", "range", "histogram"].contains name then
    some (.of ["name", "field", "options"] [] node)
  else if ["terms", "avg", "sum", "min", "max", "cardinality", "percentiles", "stats",
      "extended_stats", "value_count"].contains name then
    some (.of ["name", "field"] ["options"] node)
  else
    match name with
    | "raw" => some (.of ["name", "node"] [] fun b =>
        .add (b.value "name") (.node (b.value "node")))
    | "bucket" => some ⟨{ Signature.of ["name", "agg_type"] ["field"] with takesOptions := true },
        fun b => .add (b.value "name") (.bucket (b.value "agg_type") (b.value "field")
          b.optionEntries)⟩
    | "top_hits" => some (.of ["name"] ["options"] fun b =>
        .add (b.value "name") (.topHits (b.value "options")))
    | "sub_agg" => some (.of ["fn"] [] fun b => .nest (b.callback "fn"))
    | _ => none

/-- The steps of suggestions. -/
def suggestionForm? (name : String) : Option (Form Suggestions.Step) :=
  let entry (s : Suggester) : Option (Form Suggestions.Step) :=
    some (.of ["name", s.textName, "options"] [] fun b =>
      ⟨s, b.value "name", b.value s.textName, b.value "options"⟩)
  match name with
  | "term" => entry .term
  | "phrase" => entry .phrase
  | "completion" => entry .completion
  | _ => none

/-- The steps of an index configuration. -/
def indexConfigForm? : String → Option (Form IndexConfig.Step)
  | "mappings" => some (.of ["mappings"] [] fun b => .mappings (b.value "mappings"))
  | "settings" => some (.of ["settings"] [] fun b => .settings (b.value "settings"))
  | "alias" => some (.of ["name"] ["options"] fun b => .alias (b.value "name") (b.value "options"))
  | _ => none

/-- The steps of a bulk request. -/
def bulkForm? : String → Option (Form Bulk.Step)
  | "index" => some (.of ["doc"] ["meta"] fun b => .index (b.value "doc") (b.value "meta"))
  | "create" => some (.of ["doc"] ["meta"] fun b => .create (b.value "doc") (b.value "meta"))
  | "update" => some (.of ["meta"] [] fun b => .update (b.value "meta"))
  | "delete" => some (.of ["meta"] [] fun b => .delete (b.value "meta"))
  | _ => none

/-- The steps of a multi-search. -/
def multiSearchForm? : String → Option (Form MultiSearch.Step)
  | "add" => some (.of ["request"] [] fun b => .add (b.value "request"))
  | "add_query" => some (.of ["body"] ["header"] fun b =>
      .addQuery (b.value "body") (b.value "header"))
  | _ => none

/-! ### Operations of objects -/

/-- Conditional composition on an object. -/
def chooseMethod (receiver : Value) : Option Method :=
  some (.of ["condition", "then_fn"] ["else_fn"] fun b =>
    Callback.choose (b.value "condition") (b.callback "then_fn") (b.callback? "else_fn") receiver)

/-- The operations of the factory of clauses. -/
def clausesMethod? (name : String) : Option Method :=
  match name with
  | "knn" => some (.of ["field", "query_vector", "options"] [] fun b =>
      Clause.knn (b.value "field") (b.value "query_vector") (b.value "options"))
  | "bool" => some (.of ["fn"] [] fun b => Clause.compound (b.callback "fn"))
  | "when" => chooseMethod .clauses
  | name => (clauseForm? name).map (·.map Clause.fragment)

/-- The operations of a request. -/
def requestMethod? (r : Request) (name : String) : Option Method :=
  match name with
  | "when" => chooseMethod (Request.ofState r.state r.withQuery).toValue
  | "to_fragment" => Method.plain r.fragment
  | "build" => Method.plain r.build
  | "to_search" => some (.of [] ["index", "using"] fun b => r.toSearch (b.value "index"))
  | name => (requestForm? name).map (·.map fun step => Request.toValue <$> r.apply step)

/-- The operations of a boolean query. -/
def boolMethod? (q : BoolQuery) (name : String) : Option Method :=
  match name with
  | "to_fragment" => Method.plain (pure q.fragment)
  | "build" => Method.plain (pure q.build)
  | name => (boolForm? name).map (·.map fun step => BoolQuery.toValue <$> q.apply step)

/-- The operations of aggregations. -/
def aggregationsMethod? (a : Aggregations) (name : String) : Option Method :=
  match name with
  | "to_map" => Method.plain (pure a.nodes)
  | "build" => Method.plain (pure a.build)
  | name => (aggregationForm? name).map (·.map fun step => Aggregations.toValue <$> a.apply step)

/-- The operations of suggestions. -/
def suggestionsMethod? (s : Suggestions) (name : String) : Option Method :=
  match name with
  | "to_map" => Method.plain (pure s.state)
  | "build" => Method.plain (pure s.build)
  | name => (suggestionForm? name).map
      (·.map fun step => (Suggestions.toValue <$> s.apply step : Except Fault Value))

/-- The operations of an index configuration. -/
def indexConfigMethod? (c : IndexConfig) (name : String) : Option Method :=
  match name with
  | "build" => Method.plain (pure c.build)
  | name => (indexConfigForm? name).map (·.map fun step => IndexConfig.toValue <$> c.apply step)

/-- The operations of a bulk request. -/
def bulkMethod? (r : Bulk) (name : String) : Option Method :=
  match name with
  | "build_array" => Method.plain ((.list ·) <$> r.lines : Except Fault Value)
  | "build" => Method.plain (.str <$> r.build)
  | "operations" => Method.uncallable
  | name => (bulkForm? name).map (·.map fun step => Bulk.toValue <$> r.apply step)

/-- The operations of a multi-search. -/
def multiSearchMethod? (m : MultiSearch) (name : String) : Option Method :=
  match name with
  | "build_array" => Method.plain ((.list ·) <$> m.lines)
  | "build" => Method.plain (.str <$> m.build)
  | name => (multiSearchForm? name).map (·.map fun step => MultiSearch.toValue <$> m.apply step)

/-- The operations of a bulk operation, and its parts. -/
def operationMethod? (o : Operation) (name : String) : Option Method :=
  match name with
  | "header" => Method.plain o.actionLine
  | "lines" => Method.plain ((.list ·) <$> o.lines : Except Fault Value)
  | "for_update" => some (.of ["meta"] [] fun b =>
      Operation.toValue <$> Operation.forUpdate (b.value "meta"))
  | "action" => Method.ofPart o.action
  | "meta" => Method.ofPart o.header
  | "body" => Method.ofPart o.body
  | "has_body" => Method.uncallable
  | _ => none

/-- The operations of a query object or a score function, and its members. -/
def objectMethod? (v : Value) (name : String) : Option Method :=
  if name = "to_dict" then Method.plain (Search.dictionary .plain v)
  else (Search.member? v name).bind Method.ofPart

end Script

open Script in
/-- The operation of a value with the given name. -/
def Value.method? (v : Value) (name : String) : Option Method :=
  match v with
  | .clauses => clausesMethod? name
  | .request state withQuery _ => requestMethod? ⟨state, withQuery⟩ name
  | .boolQuery state _ => boolMethod? ⟨state⟩ name
  | .aggregations nodes last _ => aggregationsMethod? ⟨nodes, last⟩ name
  | .suggestions state _ => suggestionsMethod? ⟨state⟩ name
  | .indexConfig state _ => indexConfigMethod? ⟨state⟩ name
  | .bulk operations lineEncoding _ => bulkMethod? ⟨operations, lineEncoding⟩ name
  | .multiSearch searches lineEncoding _ => multiSearchMethod? ⟨searches, lineEncoding⟩ name
  | .operation act header body => operationMethod? ⟨act, header, body⟩ name
  | .search parts indices => searchMethod? parts indices name
  | .query _ _ | .scoreFunction _ _ => objectMethod? v name
  | v => dataMethod? v name

end SearchDsl
