import SearchDsl.Script.Signature
import SearchDsl.Search.Refinement

/-!
# Refinements by name

The operations that a search object offers under a name.  Each gives another search, whose
parts are those of a copy with one of them changed; only writing the search gives something
else.  What would send the search anywhere fails, because nothing is connected.
-/

namespace SearchDsl

namespace Script

open Search

/-- A search before it is refined. -/
structure Refined where
  parts : Dict
  indices : Option (List Value)

namespace Refined

/-- The search with the parts of a copy changed. -/
def change (s : Refined) (f : Dict → Build Dict) : Build Value := do
  let parts ← copied s.parts
  return .search (← f parts) s.indices

/-- An operation that changes the parts of a copy. -/
def form (s : Refined) (signature : Signature) (f : Bound → Dict → Build Dict) : Option Method :=
  some ⟨signature, fun b => s.change (f b)⟩

/-- Any arguments by position, and any by name. -/
def anything : Signature :=
  { required := [], optional := [], takesOptions := true, takesMore := true }

/-- Any arguments by name. -/
def named : Signature := { required := [], optional := [], takesOptions := true }

/-- Parameters of a query, by the name of its kind or the query itself. -/
def ofQuery : Signature :=
  { required := [], optional := [("name_or_query", .str "match_all")], takesOptions := true }

/-- The query that arguments denote. -/
def query (b : Bound) : Except Fault Value := queryOf (b.value "name_or_query") b.optionEntries

/-- The search with its query filtered by one that arguments denote, or by what `f` makes of
it. -/
def filtering (s : Refined) (f : Value → Value) : Option Method :=
  some ⟨ofQuery, fun b => do
    let q ← query b
    s.change fun parts => addQuery "query" (filteredBy (f q)) parts⟩

/-- The refinements of what finds the hits. -/
def findingMethod? (s : Refined) (name : String) : Option Method :=
  match name with
  | "query" => s.form ofQuery fun b parts => do addQuery "query" (← query b) parts
  | "post_filter" => s.form ofQuery fun b parts => do addQuery "post_filter" (← query b) parts
  | "filter" => s.filtering id
  | "exclude" => s.filtering negation
  | "knn" =>
    s.form (.of ["field", "k", "num_candidates"] ["query_vector", "query_vector_builder", "boost",
      "filter", "similarity", "inner_hits"]) fun b parts =>
      addVector ⟨b.value "field", b.value "k", b.value "num_candidates", b.value "query_vector",
        b.value "query_vector_builder", b.value "boost", b.value "filter", b.value "similarity",
        b.value "inner_hits"⟩ parts
  | "rank" => s.form (.of [] ["rrf"]) fun b parts => return rank (b.value "rrf") parts
  | "index" => some ⟨{ required := [], optional := [], takesMore := true }, fun b => do
      return .search (← copied s.parts) (addIndices s.indices b.more)⟩
  | _ => none

/-- The refinements of what is answered about the hits. -/
def answeringMethod? (s : Refined) (name : String) : Option Method :=
  match name with
  | "sort" => s.form { required := [], optional := [], takesMore := true } fun b parts =>
      sortBy b.more parts
  | "source" => s.form { Signature.of [] ["fields"] with takesOptions := true } fun b parts =>
      selectFields (b.value "fields") b.optionEntries parts
  | "highlight" => s.form anything fun b parts => highlight b.more b.optionEntries parts
  | "highlight_options" => s.form named fun b parts => return highlightOptions b.optionEntries parts
  | "suggest" =>
    some ⟨{ Signature.of ["name"] ["text", "regex"] with takesOptions := true }, fun b => do
      let suggestion : Suggestion :=
        ⟨b.value "name", b.value "text", b.value "regex", b.optionEntries⟩
      suggestion.check
      s.change (addSuggestion suggestion)⟩
  | "collapse" =>
    s.form (.of [] ["field", "inner_hits", "max_concurrent_group_searches"]) fun b parts =>
      return collapse (b.value "field") (b.value "inner_hits")
        (b.value "max_concurrent_group_searches") parts
  | "script_fields" => s.form named fun b parts => computeFields b.optionEntries parts
  | "extra" => s.form named fun b parts => return setParameters b.optionEntries parts
  | _ => none

/-- The refinements of how the search is sent, which do not show in its parts. -/
def sendingMethod? (s : Refined) (name : String) : Option Method :=
  let same (_ : Bound) (parts : Dict) : Build Dict := return parts
  match name with
  | "params" => s.form named same
  | "doc_type" => s.form anything same
  | "using" => s.form (.of ["client"] []) same
  | "response_class" => s.form (.of ["cls"] []) same
  | "count" | "delete" => Method.plain (.fail .missingKey)
  | "execute" => some (.of [] ["ignore_cache"] fun _ => .fail .missingKey)
  | "aggs" => Method.uncallable
  | _ => none

/-- The dictionary that a search is written as.  What is counted needs only the parts that find
the hits, and options are written after the parts. -/
def written (s : Refined) (count : Value) (options : Dict) : Except Fault Value := do
  let counted : List Name := ["query", "knn", "rank"]
  let parts := if count.truthy then s.parts.select counted else s.parts
  let body ← (← bodyDictionary parts).mapping
  Value.extend body (← Search.written (.dict options))

/-- The operations of a search that write and read it. -/
def writingMethod? (s : Refined) (name : String) : Option Method :=
  match name with
  | "to_dict" => some ⟨{ Signature.of [] ["count"] with takesOptions := true }, fun b =>
      s.written (b.value "count") b.optionEntries⟩
  | "from_dict" => some (.of ["d"] [] fun b => ofBody (b.value "d") none)
  | "update_from_dict" => some (.of ["d"] [] fun b => do
      match ← ofBody (b.value "d") none with
      | .search parts _ => return .search (ordered (s.parts.merge parts)) s.indices
      | v => return v)
  | _ => none

end Refined

/-- The operations of a search object. -/
def searchMethod? (parts : Dict) (indices : Option (List Value)) (name : String) : Option Method :=
  let s : Refined := ⟨parts, indices⟩
  (s.findingMethod? name).or <| (s.answeringMethod? name).or <|
    (s.sendingMethod? name).or <| s.writingMethod? name

end Script

end SearchDsl
