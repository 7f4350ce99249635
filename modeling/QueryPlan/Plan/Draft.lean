import QueryPlan.Plan.Build
/-!
# Drafts of expressions

Where an expression is expected a caller may have written a bare text. In a list of columns it
names a column; anywhere else it is no expression, and that is noticed when it would be resolved. A
draft is an expression in which bare texts may stand, and a list of drafts becomes a list of
expressions unless a bare text stands in it, in which case the first leaf that cannot be resolved
is the error.
-/
namespace QueryPlan

inductive Draft where
  | bare (word : String)
  | column (name : String)
  | text (value : String)
  | integer (value : Int64)
  | logic (op : LogicOp) (left right : Draft)
  | arith (op : ArithOp) (left right : Draft)
  | aggregation (func : AggFunc) (argument : Draft)
  deriving DecidableEq, Repr

def Expr.draft : Expr → Draft
  | .column name => .column name
  | .text value => .text value
  | .integer value => .integer value
  | .logic op left right => .logic op left.draft right.draft
  | .arith op left right => .arith op left.draft right.draft
  | .aggregation func argument => .aggregation func argument.draft

namespace Draft

/-- A boolean expression; an arithmetic operator is refused. -/
def ofLogic (op : BinaryOp) (left right : Draft) : Except ExprError Draft :=
  match op with
  | .logic op => .ok (.logic op left right)
  | .arith op => .error (.notLogic op)

/-- An arithmetic expression; a comparison or connective is refused. -/
def ofArith (op : BinaryOp) (left right : Draft) : Except ExprError Draft :=
  match op with
  | .arith op => .ok (.arith op left right)
  | .logic op => .error (.notArith op)

/-- The expression it is, if no bare text stands in it. -/
def expr? : Draft → Option Expr
  | .bare _ => none
  | .column name => some (.column name)
  | .text value => some (.text value)
  | .integer value => some (.integer value)
  | .logic op left right => return .logic op (← left.expr?) (← right.expr?)
  | .arith op left right => return .arith op (← left.expr?) (← right.expr?)
  | .aggregation func argument => return .aggregation func (← argument.expr?)

def asColumn : Draft → Draft
  | .bare word => .column word
  | d => d

def isAggregation : Draft → Bool
  | .aggregation .. => true
  | _ => false

/-- What stops the resolution of a draft, leaf by leaf from the left. -/
def fault? (s : Schema) : Draft → Option PlanError
  | .bare _ => some (.bareText .field)
  | .column name =>
    match s.resolve name with
    | .error e => some (.unknownColumn e)
    | .ok _ => none
  | .text _ | .integer _ => none
  | .logic _ left right | .arith _ left right => (left.fault? s).or (right.fault? s)
  | .aggregation _ argument => argument.fault? s

/-- The expressions of a list of drafts, for resolution over a schema. -/
def exprs (s : Schema) (drafts : List Draft) : Except PlanError (List Expr) :=
  match drafts.mapM expr? with
  | some es => .ok es
  | none => .error ((drafts.findSome? (fault? s)).getD (.bareText .field))

/-- Why a draft is no aggregation. The refusal displays it, so no bare text may stand inside it. -/
def refusal : Draft → PlanError
  | .bare word => .notAggregation word
  | d =>
    match d.expr? with
    | some e => .notAggregation e.display
    | none => .bareText .display

@[simp] theorem expr?_draft (e : Expr) : e.draft.expr? = some e := by
  induction e with
  | column | text | integer => rfl
  | logic _ _ _ ihl ihr | arith _ _ _ ihl ihr => simp [Expr.draft, expr?, ihl, ihr]
  | aggregation _ _ ih => simp [Expr.draft, expr?, ih]

@[simp] theorem exprs_map_draft (s : Schema) (es : List Expr) :
    exprs s (es.map Expr.draft) = .ok es := by
  have h : (es.map Expr.draft).mapM expr? = some es := by
    induction es with
    | nil => rfl
    | cons e es ih => simp [ih]
  simp [exprs, h]

end Draft

namespace Plan

def projectDrafts (input : Plan) (drafts : List Draft) : Outcome PlanError Plan :=
  match Draft.exprs input.schema drafts with
  | .error e => .fail e
  | .ok exprs => input.buildProjection exprs

def selectDraft (input : Plan) (draft : Draft) : Outcome PlanError Plan :=
  match Draft.exprs input.schema [draft] with
  | .ok [predicate] => input.buildSelection predicate
  | .ok _ => .fail (.bareText .field)
  | .error e => .fail e

def aggregateDrafts (input : Plan) (groups aggregates : List Draft) : Outcome PlanError Plan :=
  match aggregates.find? fun d => !d.isAggregation with
  | some d => .fail d.refusal
  | none =>
    match Draft.exprs input.schema (groups ++ aggregates) with
    | .error e => .fail e
    | .ok exprs =>
      input.buildAggregate (exprs.take groups.length) (exprs.drop groups.length)

end Plan
end QueryPlan
