import SearchDsl.Search.Schema

/-!
# Kinds of aggregations

The kinds of aggregations that a search object knows.  A bucket has the aggregations below
it written beside its own parameters, and the other kinds have none.  Below a bucket that
compares groups of documents, such as significant terms, aggregations are plain and stay
as they are; below every other bucket they are parts of the search.
-/

namespace SearchDsl

namespace Search

/-- The kinds of buckets with the parameters that have a place of their own. -/
def bucketPlaces : List (String × List String) :=
  [("adjacency_matrix", ["filters", "separator"]),
    ("auto_date_histogram", ["buckets", "field", "format", "minimum_interval", "missing",
      "offset", "params", "script", "time_zone"]),
    ("bucket_sort", ["from_", "gap_policy", "size", "sort"]),
    ("categorize_text", ["field", "max_unique_tokens", "max_matched_tokens",
      "similarity_threshold", "categorization_filters", "categorization_analyzer", "shard_size",
      "size", "min_doc_count", "shard_min_doc_count"]),
    ("children", ["type"]),
    ("composite", ["after", "size", "sources"]),
    ("date_histogram", ["calendar_interval", "extended_bounds", "hard_bounds", "field",
      "fixed_interval", "format", "interval", "min_doc_count", "missing", "offset", "order",
      "params", "script", "time_zone", "keyed"]),
    ("date_range", ["field", "format", "missing", "ranges", "time_zone", "keyed"]),
    ("diversified_sampler", ["execution_hint", "max_docs_per_value", "script", "shard_size",
      "field"]),
    ("filter", ["filter"]),
    ("filters", ["filters", "other_bucket", "other_bucket_key", "keyed"]),
    ("geo_distance", ["distance_type", "field", "origin", "ranges", "unit"]),
    ("geohash_grid", ["bounds", "field", "precision", "shard_size", "size"]),
    ("geohex_grid", ["field", "precision", "bounds", "size", "shard_size"]),
    ("geotile_grid", ["field", "precision", "shard_size", "size", "bounds"]),
    ("global", []),
    ("histogram", ["extended_bounds", "hard_bounds", "field", "interval", "min_doc_count",
      "missing", "offset", "order", "script", "format", "keyed"]),
    ("ip_prefix", ["field", "prefix_length", "is_ipv6", "append_prefix_length", "keyed",
      "min_doc_count"]),
    ("ip_range", ["field", "ranges"]),
    ("missing", ["field", "missing"]),
    ("multi_terms", ["terms", "collect_mode", "order", "min_doc_count", "shard_min_doc_count",
      "shard_size", "show_term_doc_count_error", "size"]),
    ("nested", ["path"]),
    ("parent", ["type"]),
    ("random_sampler", ["probability", "seed", "shard_seed"]),
    ("range", ["field", "missing", "ranges", "script", "keyed", "format"]),
    ("rare_terms", ["exclude", "field", "include", "max_doc_count", "missing", "precision",
      "value_type"]),
    ("reverse_nested", ["path"]),
    ("sampler", ["shard_size"]),
    ("significant_terms", ["background_filter", "chi_square", "exclude", "execution_hint",
      "field", "gnd", "include", "jlh", "min_doc_count", "mutual_information", "percentage",
      "script_heuristic", "p_value", "shard_min_doc_count", "shard_size", "size"]),
    ("significant_text", ["background_filter", "chi_square", "exclude", "execution_hint",
      "field", "filter_duplicate_text", "gnd", "include", "jlh", "min_doc_count",
      "mutual_information", "percentage", "script_heuristic", "shard_min_doc_count",
      "shard_size", "size", "source_fields"]),
    ("terms", ["collect_mode", "exclude", "execution_hint", "field", "include", "min_doc_count",
      "missing", "missing_order", "missing_bucket", "value_type", "order", "script",
      "shard_min_doc_count", "shard_size", "show_term_doc_count_error", "size", "format"]),
    ("time_series", ["size", "keyed"]),
    ("variable_width_histogram", ["field", "buckets", "shard_size", "initial_buffer", "script"])]

/-- The places of the parameters that the aggregations on a numeric field share. -/
def fieldPlaces : List String := ["format", "field", "missing", "script"]

/-- The places of the parameters that the aggregations of other aggregations share. -/
def pathPlaces : List String := ["format", "gap_policy", "buckets_path"]

/-- The places of the parameters of the aggregations that connect points to a line. -/
def linePlaces : List String := ["point", "sort", "include_sort", "sort_order", "size"]

/-- The kinds of aggregations that are no buckets, with the parameters that have a place of
their own. -/
def metricPlaces : List (String × List String) :=
  [("avg", fieldPlaces), ("max", fieldPlaces), ("min", fieldPlaces), ("stats", fieldPlaces),
    ("sum", fieldPlaces), ("value_count", fieldPlaces),
    ("boxplot", ["compression", "execution_hint", "field", "missing", "script"]),
    ("cardinality", ["precision_threshold", "rehash", "execution_hint", "field", "missing",
      "script"]),
    ("cartesian_bounds", ["field", "missing", "script"]),
    ("cartesian_centroid", ["field", "missing", "script"]),
    ("extended_stats", "sigma" :: fieldPlaces),
    ("frequent_item_sets", ["fields", "minimum_set_size", "minimum_support", "size", "filter"]),
    ("geo_bounds", ["wrap_longitude", "field", "missing", "script"]),
    ("geo_centroid", ["count", "location", "field", "missing", "script"]),
    ("geo_line", linePlaces), ("line", linePlaces),
    ("matrix_stats", ["mode", "fields", "missing"]),
    ("median_absolute_deviation", ["compression", "execution_hint"] ++ fieldPlaces),
    ("percentile_ranks", ["keyed", "values", "hdr", "tdigest"] ++ fieldPlaces),
    ("percentiles", ["keyed", "percents", "hdr", "tdigest"] ++ fieldPlaces),
    ("rate", ["unit", "mode"] ++ fieldPlaces),
    ("scripted_metric", ["combine_script", "init_script", "map_script", "params",
      "reduce_script", "field", "missing", "script"]),
    ("string_stats", ["show_distribution", "field", "missing", "script"]),
    ("t_test", ["a", "b", "type"]),
    ("top_hits", ["docvalue_fields", "explain", "fields", "from_", "highlight", "script_fields",
      "size", "sort", "_source", "stored_fields", "track_scores", "version",
      "seq_no_primary_term", "field", "missing", "script"]),
    ("top_metrics", ["metrics", "size", "sort", "field", "missing", "script"]),
    ("weighted_avg", ["format", "value", "value_type", "weight"]),
    ("avg_bucket", pathPlaces), ("change_point", pathPlaces),
    ("cumulative_cardinality", pathPlaces), ("cumulative_sum", pathPlaces),
    ("derivative", pathPlaces), ("max_bucket", pathPlaces), ("min_bucket", pathPlaces),
    ("stats_bucket", pathPlaces), ("sum_bucket", pathPlaces),
    ("moving_avg", []),
    ("bucket_correlation", ["function", "buckets_path"]),
    ("bucket_count_ks_test", ["alternative", "fractions", "sampling_method", "buckets_path"]),
    ("bucket_script", "script" :: pathPlaces),
    ("bucket_selector", "script" :: pathPlaces),
    ("extended_stats_bucket", "sigma" :: pathPlaces),
    ("inference", ["model_id", "inference_config"] ++ pathPlaces),
    ("moving_fn", ["script", "shift", "window"] ++ pathPlaces),
    ("moving_percentiles", ["window", "shift", "keyed"] ++ pathPlaces),
    ("normalize", "method" :: pathPlaces),
    ("percentiles_bucket", "percents" :: pathPlaces),
    ("serial_diff", "lag" :: pathPlaces)]

/-- The kind is one of a bucket. -/
def isBucket (kind : String) : Bool := (Entries.find? kind bucketPlaces).isSome

/-- The parameters by which aggregations hold other parts. -/
def aggregationRoles : String → List (String × Role)
  | "adjacency_matrix" => [("filters", .named .query)]
  | "filter" => [("filter", .one .query), ("aggs", .named .aggregation)]
  | "filters" => [("filters", .named .query), ("aggs", .named .aggregation)]
  | "frequent_item_sets" => [("filter", .one .query)]
  | "significant_terms" | "significant_text" => [("background_filter", .one .query)]
  | kind => if isBucket kind then [("aggs", .named .aggregation)] else []

/-- The schema of a kind of aggregations. -/
def aggregationSchema? (kind : String) : Option Schema :=
  ((Entries.find? kind bucketPlaces).or (Entries.find? kind metricPlaces)).map fun places =>
    ⟨places, aggregationRoles kind, .plain⟩

end Search

end SearchDsl
