import QueryPlan.Number.Binary64
import QueryPlan.Schema.DataType
/-!
# Frames

A frame is a block of rows kept by columns. A column has a label, the name of its layout and one
cell per row. Labels are texts or whole numbers, and a number differs from the text that spells it.
-/
namespace QueryPlan

inductive Cell where
  | missing
  | text (s : String)
  | integer (n : Int)
  | boolean (b : Bool)
  | float (x : Binary64)
  deriving DecidableEq, Repr

inductive Label where
  | text (s : String)
  | number (n : Int)
  deriving DecidableEq, Repr

def Label.name : Label → String
  | .text s => s
  | .number n => toString n

structure Column where
  label : Label
  /-- The name of the layout of the cells. -/
  storage : String
  cells : List Cell
  deriving DecidableEq, Repr

def Column.hasMissing (c : Column) : Bool :=
  c.cells.contains .missing

structure Frame where
  columns : List Column
  deriving DecidableEq, Repr

namespace Frame

def width (f : Frame) : Nat :=
  f.columns.length

def height (f : Frame) : Nat :=
  match f.columns with
  | [] => 0
  | c :: _ => c.cells.length

def labels (f : Frame) : List Label :=
  f.columns.map (·.label)

def rows (f : Frame) : List (List Cell) :=
  f.columns.foldr (fun c rows => List.zipWith List.cons c.cells rows) (List.replicate f.height [])

/-- The columns of the given names, in the order of the frame. -/
def restrict (f : Frame) (names : List String) : Frame :=
  ⟨f.columns.filter fun c => names.contains c.label.name⟩

def hasMissing (f : Frame) (name : String) : Bool :=
  f.columns.any fun c => c.label == .text name && c.hasMissing

end Frame
end QueryPlan
