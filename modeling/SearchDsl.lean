import SearchDsl.Proofs.Request.Targets
import SearchDsl.Proofs.Embedding
import SearchDsl.Proofs.Aggregations.Program
import SearchDsl.Proofs.Bulk
import SearchDsl.Script.Answer
import SearchDsl.Script.Reader
import SearchDsl.Proofs.Request.Root
import SearchDsl.Proofs.Bulk.Decoding
import SearchDsl.Proofs.MultiSearch
import SearchDsl.Proofs.Aggregations.Last
import SearchDsl.Proofs.Aggregations.Splitting
import SearchDsl.Proofs.Aggregations.Levels
import SearchDsl.Proofs.Request.WithoutQuery
import SearchDsl.Proofs.Request.Form
import SearchDsl.Proofs.Ndjson.Refusal
import SearchDsl.Proofs.Bulk.Update
import SearchDsl.Proofs.Bulk.Parts
import SearchDsl.Proofs.Bulk.LineBreaks
import SearchDsl.Proofs.Paths
import SearchDsl.Proofs.Request.Composing
import SearchDsl.Proofs.Request.Embedded
import SearchDsl.Proofs.Nulls
import SearchDsl.Proofs.State.Merging
import SearchDsl.Proofs.Options
import SearchDsl.Proofs.Conditional
import SearchDsl.Proofs.NamedEntries
import SearchDsl.Proofs.Ndjson.Regular
import SearchDsl.Proofs.Script.Chain
