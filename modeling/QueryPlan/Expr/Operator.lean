import QueryPlan.Text.Quoted
/-!
# Operators and aggregation functions

A binary operator either yields a truth value or computes a number, and the two kinds are types of
their own. Each operator has a name, a symbol for display and the name of the field it produces.
-/
namespace QueryPlan

inductive LogicOp where
  | eq
  | neq
  | gt
  | lt
  | gteq
  | lteq
  | and
  | or
  deriving DecidableEq, Repr

inductive ArithOp where
  | add
  | subtract
  | multiply
  | divide
  | modulus
  deriving DecidableEq, Repr

inductive BinaryOp where
  | logic (op : LogicOp)
  | arith (op : ArithOp)
  deriving DecidableEq, Repr

namespace LogicOp

def name : LogicOp → String
  | .eq => "EQ"
  | .neq => "NEQ"
  | .gt => "GT"
  | .lt => "LT"
  | .gteq => "GTEQ"
  | .lteq => "LTEQ"
  | .and => "AND"
  | .or => "OR"

def symbol : LogicOp → String
  | .eq => "="
  | .neq => "!="
  | .gt => ">"
  | .lt => "<"
  | .gteq => ">="
  | .lteq => "<="
  | .and => "AND"
  | .or => "OR"

def fieldName : LogicOp → String
  | .eq => "eq"
  | .neq => "neq"
  | .gt => "gt"
  | .lt => "lt"
  | .gteq => "gteq"
  | .lteq => "lteq"
  | .and => "and"
  | .or => "or"

end LogicOp

namespace ArithOp

def name : ArithOp → String
  | .add => "ADD"
  | .subtract => "SUBTRACT"
  | .multiply => "MULTIPLY"
  | .divide => "DIVIDE"
  | .modulus => "MODULUS"

def symbol : ArithOp → String
  | .add => "+"
  | .subtract => "-"
  | .multiply => "*"
  | .divide => "/"
  | .modulus => "%"

def fieldName : ArithOp → String
  | .add => "add"
  | .subtract => "subtract"
  | .multiply => "mult"
  | .divide => "div"
  | .modulus => "modulus"

end ArithOp

namespace BinaryOp

def all : List BinaryOp :=
  [.logic .eq, .logic .neq, .logic .gt, .logic .lt, .logic .gteq, .logic .lteq, .logic .and,
   .logic .or, .arith .add, .arith .subtract, .arith .multiply, .arith .divide, .arith .modulus]

def name : BinaryOp → String
  | .logic op => op.name
  | .arith op => op.name

def symbol : BinaryOp → String
  | .logic op => op.symbol
  | .arith op => op.symbol

def fieldName : BinaryOp → String
  | .logic op => op.fieldName
  | .arith op => op.fieldName

def isLogic : BinaryOp → Bool
  | .logic _ => true
  | .arith _ => false

def isArith : BinaryOp → Bool
  | .logic _ => false
  | .arith _ => true

def ofName? (name : String) : Option BinaryOp :=
  all.find? fun op => op.name == name

/-- The operator as a numbered member of the enumeration; numbers start at one. -/
def shown (op : BinaryOp) : String :=
  "<BinaryOp." ++ op.name ++ ": " ++ toString (all.idxOf op + 1) ++ ">"

end BinaryOp

inductive AggFunc where
  | sum
  | min
  | max
  | avg
  deriving DecidableEq, Repr

namespace AggFunc

def all : List AggFunc :=
  [.sum, .min, .max, .avg]

def name : AggFunc → String
  | .sum => "SUM"
  | .min => "MIN"
  | .max => "MAX"
  | .avg => "AVG"

def fieldName : AggFunc → String
  | .sum => "sum"
  | .min => "min"
  | .max => "max"
  | .avg => "avg"

def ofName? (name : String) : Option AggFunc :=
  all.find? fun f => f.name == name

def shown (f : AggFunc) : String :=
  "<AggFunc." ++ f.name ++ ": " ++ toString (all.idxOf f + 1) ++ ">"

end AggFunc
end QueryPlan
