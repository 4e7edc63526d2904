import SearchDsl.Search.Schema

/-!
# Kinds of queries

The kinds of queries that a search object knows.  A query on a single field takes the
field as the name of a parameter, so that none of its parameters has a place of its own.
Any other query has its own parameters first, then its boost and its name.  The spans that
span queries combine are no queries of their own to a search object.

The kinds of score functions stand here as well, since a query of the kind
`function_score` may hold its functions under their kinds.
-/

namespace SearchDsl

namespace Search

/-- The kinds of queries on a single field. -/
def fieldQueries : List String :=
  ["common", "fuzzy", "geo_grid", "intervals", "match", "match_bool_prefix", "match_phrase",
    "match_phrase_prefix", "prefix", "range", "regexp", "span_term", "term", "terms_set",
    "text_expansion", "weighted_tokens", "wildcard"]

/-- The other kinds of queries with their own parameters. -/
def queryPlaces : List (String × List String) :=
  [("bool", ["filter", "minimum_should_match", "must", "must_not", "should"]),
    ("boosting", ["negative_boost", "negative", "positive"]),
    ("combined_fields", ["fields", "query", "auto_generate_synonyms_phrase_query", "operator",
      "minimum_should_match", "zero_terms_query"]),
    ("constant_score", ["filter"]),
    ("dis_max", ["queries", "tie_breaker"]),
    ("distance_feature", ["origin", "pivot", "field"]),
    ("exists", ["field"]),
    ("function_score", ["boost_mode", "functions", "max_boost", "min_score", "query",
      "score_mode"]),
    ("geo_bounding_box", ["type", "validation_method", "ignore_unmapped"]),
    ("geo_distance", ["distance", "distance_type", "validation_method", "ignore_unmapped"]),
    ("geo_polygon", ["validation_method", "ignore_unmapped"]),
    ("geo_shape", ["ignore_unmapped"]),
    ("has_child", ["query", "type", "ignore_unmapped", "inner_hits", "max_children",
      "min_children", "score_mode"]),
    ("has_parent", ["parent_type", "query", "ignore_unmapped", "inner_hits", "score"]),
    ("ids", ["values"]),
    ("knn", ["field", "query_vector", "query_vector_builder", "num_candidates",
      "visit_percentage", "k", "filter", "similarity", "rescore_vector"]),
    ("match_all", []),
    ("match_none", []),
    ("more_like_this", ["like", "analyzer", "boost_terms", "fail_on_unsupported_field", "fields",
      "include", "max_doc_freq", "max_query_terms", "max_word_length", "min_doc_freq",
      "minimum_should_match", "min_term_freq", "min_word_length", "routing", "stop_words",
      "unlike", "version", "version_type"]),
    ("multi_match", ["query", "analyzer", "auto_generate_synonyms_phrase_query",
      "cutoff_frequency", "fields", "fuzziness", "fuzzy_rewrite", "fuzzy_transpositions",
      "lenient", "max_expansions", "minimum_should_match", "operator", "prefix_length", "slop",
      "tie_breaker", "type", "zero_terms_query"]),
    ("nested", ["path", "query", "ignore_unmapped", "inner_hits", "score_mode"]),
    ("parent_id", ["id", "ignore_unmapped", "type"]),
    ("percolate", ["field", "document", "documents", "id", "index", "name", "preference",
      "routing", "version"]),
    ("pinned", ["organic", "ids", "docs"]),
    ("query_string", ["query", "allow_leading_wildcard", "analyzer", "analyze_wildcard",
      "auto_generate_synonyms_phrase_query", "default_field", "default_operator",
      "enable_position_increments", "escape", "fields", "fuzziness", "fuzzy_max_expansions",
      "fuzzy_prefix_length", "fuzzy_rewrite", "fuzzy_transpositions", "lenient",
      "max_determinized_states", "minimum_should_match", "phrase_slop", "quote_analyzer",
      "quote_field_suffix", "rewrite", "tie_breaker", "time_zone", "type"]),
    ("rank_feature", ["field", "saturation", "log", "linear", "sigmoid"]),
    ("rule", ["organic", "match_criteria", "ruleset_ids", "ruleset_id"]),
    ("script", ["script"]),
    ("script_score", ["query", "script", "min_score"]),
    ("semantic", ["field", "query"]),
    ("shape", ["ignore_unmapped"]),
    ("simple_query_string", ["query", "analyzer", "analyze_wildcard",
      "auto_generate_synonyms_phrase_query", "default_operator", "fields", "flags",
      "fuzzy_max_expansions", "fuzzy_prefix_length", "fuzzy_transpositions", "lenient",
      "minimum_should_match", "quote_field_suffix"]),
    ("span_containing", ["big", "little"]),
    ("span_field_masking", ["field", "query"]),
    ("span_first", ["end", "match"]),
    ("span_multi", ["match"]),
    ("span_near", ["clauses", "in_order", "slop"]),
    ("span_not", ["exclude", "include", "dist", "post", "pre"]),
    ("span_or", ["clauses"]),
    ("span_within", ["big", "little"]),
    ("sparse_vector", ["field", "query_vector", "inference_id", "query", "prune",
      "pruning_config"]),
    ("terms", []),
    ("type", ["value"]),
    ("wrapper", ["query"])]

/-- The parameters by which queries hold other parts. -/
def queryRoles : String → List (String × Role)
  | "bool" => ["must", "should", "must_not", "filter"].map fun name => (name, .many .query)
  | "boosting" => [("positive", .one .query), ("negative", .one .query)]
  | "constant_score" => [("filter", .one .query)]
  | "dis_max" => [("queries", .many .query)]
  | "function_score" =>
    [("query", .one .query), ("filter", .one .query), ("functions", .many .scoreFunction)]
  | "has_child" | "has_parent" | "nested" | "script_score" => [("query", .one .query)]
  | "knn" => [("filter", .many .query)]
  | "pinned" | "rule" => [("organic", .one .query)]
  | "span_multi" => [("match", .one .query)]
  | _ => []

/-- The schema of a kind of queries. -/
def querySchema? (kind : String) : Option Schema :=
  if fieldQueries.contains kind then some ⟨[], [], .plain⟩
  else (Entries.find? kind queryPlaces).map fun own =>
    ⟨own ++ ["boost", "_name"], queryRoles kind, if kind = "terms" then .sequence else .plain⟩

/-! ### Score functions -/

/-- The kinds of score functions. -/
def scoreFunctions : List String :=
  ["script_score", "boost_factor", "random_score", "field_value_factor", "linear", "gauss", "exp"]

/-- The parameters of a score function that are written beside it. -/
def scoreFunctionOptions : List Name := ["query", "filter", "weight"]

/-- The parameters by which score functions hold queries. -/
def scoreFunctionRoles : List (String × Role) := [("query", .one .query), ("filter", .one .query)]

/-- The schema of a kind of score functions. -/
def scoreFunctionSchema? (kind : String) : Option Schema :=
  if scoreFunctions.contains kind then some ⟨[], scoreFunctionRoles, .plain⟩ else none

end Search

end SearchDsl
