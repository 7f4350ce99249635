import QueryPlan.Csv.Source
import QueryPlan.Expr.Resolve
/-!
# Logical plans

A plan is a chain of operators that ends in the scan of a source. A projection and an aggregate keep
the schema that was derived when they were built; a selection passes its input's schema on. Two
plans are the same when they agree in everything but their sources and the schemas they keep.
-/
namespace QueryPlan

inductive Plan where
  /-- The rows of a source, under the schema it was bound to; no projection means every column. -/
  | scan (path : String) (bound : Schema) (source : CsvSource) (columns : List String)
  /-- One column per expression. -/
  | projection (input : Plan) (exprs : List Expr) (derived : Schema)
  /-- The rows that satisfy a predicate. -/
  | selection (input : Plan) (predicate : Expr)
  /-- One row per group: the grouping columns, then the aggregates. -/
  | aggregate (input : Plan) (groups aggregates : List Expr) (derived : Schema)

namespace Plan

def schema : Plan → Schema
  | .scan _ bound _ _ => bound
  | .projection _ _ derived => derived
  | .selection input _ => input.schema
  | .aggregate _ _ _ derived => derived

def input? : Plan → Option Plan
  | .scan .. => none
  | .projection input .. | .selection input _ | .aggregate input .. => some input

/-- The nodes from the root down to the scan. -/
def nodes : Plan → List Plan
  | p@(.scan ..) => [p]
  | p@(.projection input _ _) | p@(.selection input _) | p@(.aggregate input _ _ _) =>
    p :: input.nodes

def source : Plan → CsvSource
  | .scan _ _ source _ => source
  | .projection input .. | .selection input _ | .aggregate input .. => input.source

/-- Whether two plans agree in everything but their sources and the schemas they keep. -/
def same : Plan → Plan → Bool
  | .scan path bound _ columns, .scan path' bound' _ columns' =>
    path == path' && bound == bound' && columns == columns'
  | .projection input exprs _, .projection input' exprs' _ => input.same input' && exprs == exprs'
  | .selection input predicate, .selection input' predicate' =>
    input.same input' && predicate == predicate'
  | .aggregate input groups aggregates _, .aggregate input' groups' aggregates' _ =>
    input.same input' && groups == groups' && aggregates == aggregates'
  | _, _ => false

end Plan
end QueryPlan
