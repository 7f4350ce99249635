import QueryPlan.Expr.Operator
/-!
# Expressions

An expression refers to columns, states a text or a 64-bit integer, combines two expressions by a
binary operator or aggregates one. It is displayed without parentheses, and texts without escapes.
-/
namespace QueryPlan

inductive Expr where
  /-- A reference to a column of the input. -/
  | column (name : String)
  | text (value : String)
  | integer (value : Int64)
  | logic (op : LogicOp) (left right : Expr)
  | arith (op : ArithOp) (left right : Expr)
  | aggregation (func : AggFunc) (argument : Expr)
  deriving DecidableEq, Repr

inductive ValueKind where
  | boolean
  | float
  | absent
  | list
  | mapping
  deriving DecidableEq, Repr

/-- A value as it is handed over to become a literal. -/
inductive LiteralValue where
  | text (s : String)
  | integer (n : Int)
  | other (kind : ValueKind)
  deriving DecidableEq, Repr

inductive ExprError where
  | outOfRange (n : Int)
  | notLogic (op : ArithOp)
  | notArith (op : LogicOp)
  | noLiteral (kind : ValueKind)
  deriving DecidableEq, Repr

def ValueKind.name : ValueKind → String
  | .boolean => "bool"
  | .float => "float"
  | .absent => "NoneType"
  | .list => "list"
  | .mapping => "dict"

def ExprError.message : ExprError → String
  | .outOfRange n => "Integer literal out of int64 range: " ++ toString n
  | .notLogic op => "Not a boolean operator: " ++ op.name
  | .notArith op => "Not a math operator: " ++ op.name
  | .noLiteral kind => "Cannot create literal from type: <class '" ++ kind.name ++ "'>"

namespace Expr

def ofInt (n : Int) : Except ExprError Expr :=
  if -9223372036854775808 ≤ n ∧ n < 9223372036854775808 then .ok (.integer (.ofInt n))
  else .error (.outOfRange n)

/-- The literal of a value, if texts and integers of its size have one. -/
def ofValue : LiteralValue → Except ExprError Expr
  | .text s => .ok (.text s)
  | .integer n => ofInt n
  | .other kind => .error (.noLiteral kind)

def display : Expr → String
  | .column name => name
  | .text value => "'" ++ value ++ "'"
  | .integer value => toString value.toInt
  | .logic op left right => left.display ++ op.symbol ++ right.display
  | .arith op left right => left.display ++ " " ++ op.symbol ++ " " ++ right.display
  | .aggregation func argument => func.fieldName ++ "(" ++ argument.display ++ ")"

def formName : Expr → String
  | .column _ => "Col"
  | .text _ => "LiteralString"
  | .integer _ => "LiteralInt"
  | .logic .. => "BooleanExpr"
  | .arith .. => "MathExpr"
  | .aggregation .. => "Aggregation"

def shown : Expr → String
  | .column name => "Col(name=" ++ Text.quoted name ++ ")"
  | .text value => "LiteralString(value=" ++ Text.quoted value ++ ")"
  | .integer value => "LiteralInt(value=" ++ toString value.toInt ++ ")"
  | .logic op left right => "BooleanExpr(op=" ++ (BinaryOp.logic op).shown ++ ", left=" ++
      left.shown ++ ", right=" ++ right.shown ++ ")"
  | .arith op left right => "MathExpr(op=" ++ (BinaryOp.arith op).shown ++ ", left=" ++
      left.shown ++ ", right=" ++ right.shown ++ ")"
  | .aggregation func argument => "Aggregation(func=" ++ func.shown ++ ", expr=" ++
      argument.shown ++ ")"

def children : Expr → List Expr
  | .column _ | .text _ | .integer _ => []
  | .logic _ left right | .arith _ left right => [left, right]
  | .aggregation _ argument => [argument]

def operator? : Expr → Option BinaryOp
  | .logic op _ _ => some (.logic op)
  | .arith op _ _ => some (.arith op)
  | _ => none

/-- The columns referred to, leaf by leaf from the left. -/
def columns : Expr → List String
  | .column name => [name]
  | .text _ | .integer _ => []
  | .logic _ left right | .arith _ left right => left.columns ++ right.columns
  | .aggregation _ argument => argument.columns

def isAggregation : Expr → Bool
  | .aggregation .. => true
  | _ => false

end Expr
end QueryPlan
