import QueryPlan.Csv.Folder
import QueryPlan.Main
import QueryPlan.Proofs.Inference
import QueryPlan.Proofs.Plan.Coherence
import QueryPlan.Proofs.Plan.Derivation
import QueryPlan.Proofs.Plan.Display
import QueryPlan.Proofs.Plan.Explanation
import QueryPlan.Proofs.Plan.Provenance
import QueryPlan.Proofs.Plan.Pruning
import QueryPlan.Proofs.Plan.PushDown
import QueryPlan.Proofs.Plan.Refusal
import QueryPlan.Proofs.Query.Ambiguity
import QueryPlan.Proofs.Query.Equality
import QueryPlan.Proofs.Query.Filters
import QueryPlan.Proofs.Query.Selection
import QueryPlan.Proofs.Query.Session
import QueryPlan.Proofs.Scan.BatchCheck
import QueryPlan.Proofs.Scan.BatchSize
import QueryPlan.Proofs.Scan.Concatenation
import QueryPlan.Proofs.Scan.Conformance
import QueryPlan.Proofs.Scan.Failure
import QueryPlan.Proofs.Scan.Header
import QueryPlan.Proofs.Scan.Integers
import QueryPlan.Proofs.Scan.Nullability
import QueryPlan.Proofs.Scan.Projection
import QueryPlan.Proofs.Scan.QuotedFile
import QueryPlan.Proofs.Scan.Records
import QueryPlan.Proofs.Scan.Refusal
import QueryPlan.Proofs.Scan.Width
import QueryPlan.Proofs.Schema.Dictionary
