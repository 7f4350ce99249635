import QueryPlan.Log
import QueryPlan.Plan.Display
/-!
# Building plans

A node is built only when every expression in it resolves against its input, so that no plan holds
a column that cannot be found. A failed construction logs nothing. A successful one logs a warning
when the derived schema repeats a name, and then one record about the node.
-/
namespace QueryPlan

inductive Demand where
  | field
  | display
  deriving DecidableEq, Repr

inductive PlanError where
  | unknownColumn (e : UnknownColumn)
  /-- An aggregate of this display is no aggregation. -/
  | notAggregation (display : String)
  /-- The source's schema differs from the one bound to the path. -/
  | schemaMismatch (path : String)
  /-- The projection of a scan was one text instead of a list of names. -/
  | projectionText (text : String)
  /-- A text stood where an expression must stand, and this was asked of it. -/
  | bareText (demand : Demand)
  deriving DecidableEq, Repr

def PlanError.message : PlanError → String
  | .unknownColumn e => e.message
  | .notAggregation display => "Expected an aggregation, got: " ++ display
  | .schemaMismatch path => "Data source schema does not match the schema bound to " ++ path
  | .projectionText text =>
    "Projection must be a sequence of column names, got str: " ++ Text.quoted text
  | .bareText .field => "'str' object has no attribute 'to_field'"
  | .bareText .display => "'str' object has no attribute 'to_string'"

/-- The columns a scan is asked for. A text is not taken apart into names. -/
inductive ScanColumns where
  | names (names : List String)
  | text (text : String)
  deriving DecidableEq, Repr

namespace Plan

def created (message : String) : LogRecord :=
  ⟨.debug, .plan, "Created " ++ message⟩

def duplicateWarning (node : String) (derived : Schema) : List LogRecord :=
  match derived.duplicateNames with
  | [] => []
  | names =>
    [⟨.warning, .plan, node ++ " produces duplicate field names " ++ Text.quotedList names ++
      "; they cannot be referenced by later expressions"⟩]

def buildScan (path : String) (bound : Schema) (source : CsvSource) :
    ScanColumns → Outcome PlanError Plan
  | .text text => .fail (.projectionText text)
  | .names columns =>
    if source.schema = bound then
      match bound.select columns with
      | .error e => .fail (.unknownColumn e)
      | .ok _ =>
        ⟨[created ("Scan of " ++ path ++ " with " ++ toString bound.width ++ " fields")],
          .ok (.scan path bound source columns)⟩
    else .fail (.schemaMismatch path)

def buildProjection (input : Plan) (exprs : List Expr) : Outcome PlanError Plan :=
  match input.schema.derive exprs with
  | .error e => .fail (.unknownColumn e)
  | .ok derived =>
    ⟨duplicateWarning "Projection" derived ++
        [created ("Projection of " ++ toString exprs.length ++ " expressions")],
      .ok (.projection input exprs derived)⟩

def buildSelection (input : Plan) (predicate : Expr) : Outcome PlanError Plan :=
  match predicate.field input.schema with
  | .error e => .fail (.unknownColumn e)
  | .ok _ =>
    ⟨[created ("Selection on " ++ predicate.display)], .ok (.selection input predicate)⟩

/-- The groups of a plan with their aggregates. What is no aggregation is refused before any column
is looked up. -/
def buildAggregate (input : Plan) (groups aggregates : List Expr) : Outcome PlanError Plan :=
  match aggregates.find? fun e => !e.isAggregation with
  | some e => .fail (.notAggregation e.display)
  | none =>
    match input.schema.derive (groups ++ aggregates) with
    | .error e => .fail (.unknownColumn e)
    | .ok derived =>
      ⟨duplicateWarning "Aggregate" derived ++
          [created ("Aggregate with " ++ toString groups.length ++ " groups and " ++
            toString aggregates.length ++ " aggregates")],
        .ok (.aggregate input groups aggregates derived)⟩

end Plan
end QueryPlan
