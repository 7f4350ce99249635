import QueryPlan.Plan.Basic
/-!
# Plans as text

A node is described on one line. A plan is explained by its nodes from the root down, one per line,
each indented two spaces more than the one above. Paths, names and texts are written as they are,
so a line feed inside one of them breaks its line.
-/
namespace QueryPlan
namespace Plan

def displayAll (exprs : List Expr) : String :=
  Text.commaSeparated (exprs.map Expr.display)

def display : Plan → String
  | .scan path _ _ columns =>
    "Scan: " ++ path ++ ", projection=" ++
      (if columns.isEmpty then "None" else Text.quotedList columns)
  | .projection _ exprs _ => "Projection: " ++ displayAll exprs
  | .selection _ predicate => "Filter: " ++ predicate.display
  | .aggregate _ groups aggregates _ =>
    "Aggregate: groupExpr=" ++ displayAll groups ++ ", aggregateExpr=" ++ displayAll aggregates

def indent (depth : Nat) : String :=
  String.ofList (List.replicate (2 * depth) ' ')

def linesFrom (depth : Nat) : Plan → List String
  | p@(.scan ..) => [indent depth ++ p.display]
  | p@(.projection input _ _) | p@(.selection input _) | p@(.aggregate input _ _ _) =>
    (indent depth ++ p.display) :: input.linesFrom (depth + 1)

/-- The whole plan, every line ended by a line feed. -/
def explain (p : Plan) : String :=
  String.join ((p.linesFrom 0).map fun line => line ++ "\n")

def shownAll (exprs : List Expr) : String :=
  Text.tuple (exprs.map Expr.shown)

/-- A plan with its structure; sources and kept schemas are left out. -/
def shown : Plan → String
  | .scan path bound _ columns =>
    "Scan(path=" ++ Text.quoted path ++ ", bound_schema=" ++ bound.shown ++ ", projection=" ++
      Text.tuple (columns.map Text.quoted) ++ ")"
  | .projection input exprs _ =>
    "Projection(input=" ++ input.shown ++ ", exprs=" ++ shownAll exprs ++ ")"
  | .selection input predicate =>
    "Selection(input=" ++ input.shown ++ ", predicate=" ++ predicate.shown ++ ")"
  | .aggregate input groups aggregates _ =>
    "Aggregate(input=" ++ input.shown ++ ", group_exprs=" ++ shownAll groups ++
      ", aggregate_exprs=" ++ shownAll aggregates ++ ")"

def inputDisplays (p : Plan) : List String :=
  p.input?.toList.map display

theorem length_linesFrom (p : Plan) (depth : Nat) :
    (p.linesFrom depth).length = p.nodes.length := by
  induction p generalizing depth with
  | scan => rfl
  | projection input _ _ ih | selection input _ ih | aggregate input _ _ _ ih =>
    simp [linesFrom, nodes, ih]

end Plan
end QueryPlan
