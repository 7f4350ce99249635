import QueryPlan.Expr.Basic
import QueryPlan.Schema.Basic
/-!
# The field of an expression

Over a schema an expression produces one field. A column keeps its field, a literal is named by its
value, and an operation by its operator; the left operand decides the type of an arithmetic
expression. Every operand is resolved, also where its field does not matter, so that a column that
does not resolve is reported wherever it stands.
-/
namespace QueryPlan
namespace Expr

def field (s : Schema) : Expr → Except UnknownColumn Field
  | .column name => s.resolve name
  | .text value => .ok ⟨value, .utf8, false⟩
  | .integer value => .ok ⟨toString value.toInt, .int64, false⟩
  | .logic op left right => do
    let _ ← left.field s
    let _ ← right.field s
    return ⟨op.fieldName, .boolean, false⟩
  | .arith op left right => do
    let f ← left.field s
    let _ ← right.field s
    return ⟨op.fieldName, f.type, false⟩
  | .aggregation func argument => do
    let f ← argument.field s
    return ⟨func.fieldName, f.type, false⟩

end Expr

namespace Schema

/-- One field per expression, in order; the first column that does not resolve is reported. -/
def derive (s : Schema) (exprs : List Expr) : Except UnknownColumn Schema := do
  return ⟨← exprs.mapM (Expr.field s)⟩

end Schema
end QueryPlan
