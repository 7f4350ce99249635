import QueryPlan.Frame
import QueryPlan.Schema.Basic
/-!
# The schema of a frame

A frame determines a schema when its labels are distinct and every layout stores a data type: one
field per column, named by the label's text and nullable when a cell is missing. The first column
from the left that offends decides the error. Columns are found by their label, and the layout of
what is found by a word. Where several columns are labelled by this very word they are found in
the place of a layout, and are none.
-/
namespace QueryPlan

/-- The label by which a column is asked for its layout. -/
def Label.layout : Label :=
  .text "dtype"

inductive FrameError where
  /-- Several columns have one label, and together they lack the attribute that is a layout. -/
  | repeatedLabel
  /-- Several columns stand in the place of a layout, and are no such value. They are told by their
  text, if it is known. -/
  | columnsAsLayout (text : Option String)
  /-- The value that is a layout stores no data type. -/
  | unsupported (e : DataTypeError)
  deriving DecidableEq, Repr

def FrameError.message : FrameError → String
  | .repeatedLabel => "'DataFrame' object has no attribute 'dtype'"
  | .columnsAsLayout (some text) => (DataTypeError.unsupportedStorage text).message
  | .columnsAsLayout none => "columns are no layout"
  | .unsupported e => e.message

/-- The text of the columns of one label. It is known for columns without cells, as long as the
labels fit a line. -/
def Frame.textOf (f : Frame) (l : Label) : Option String :=
  let labels := f.labels.filter (· == l)
  if f.height = 0 ∧ labels.length ≤ 80 then
    some ("Empty DataFrame\nColumns: [" ++ Text.commaSeparated (labels.map Label.name) ++
      "]\nIndex: []")
  else none

def Frame.repetition (f : Frame) (l : Label) : FrameError :=
  if l = .layout then .columnsAsLayout (f.textOf l) else .repeatedLabel

def Frame.field (f : Frame) (c : Column) : Except FrameError Field :=
  if 1 < f.labels.count c.label then .error (f.repetition c.label)
  else
    match DataType.ofStorageName c.storage with
    | .ok t => .ok ⟨c.label.name, t, c.hasMissing⟩
    | .error e => .error (.unsupported e)

def Schema.ofFrame (f : Frame) : Except FrameError Schema := do
  return ⟨← f.columns.mapM f.field⟩

end QueryPlan
