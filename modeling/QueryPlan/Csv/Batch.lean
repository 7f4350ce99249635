import QueryPlan.Csv.Fault
import QueryPlan.Csv.Row
/-!
# Batches of rows

The rows of a text are gathered in batches. The first row of a batch sets how many cells its rows
have: a longer row is malformed, and a shorter one lacks its last cells. Every batch is read from a
mark of its own, and the first one from two, at the start of the text and after its first row.

Rows that are read again are gathered again, until the batch has all its rows, or until it runs out
of room and is malformed. Room is made for all that a block can hold when a batch or a block is
begun, and for the cells that a short row lacks.
-/
namespace QueryPlan.Csv

/-- How many bytes of text and how many cells a batch can hold, and how many rows it has to stay
below. -/
structure Room where
  bytes : Nat
  cells : Nat
  rows : Nat
  /-- The most cells that an earlier batch had room for. -/
  mostCells : Nat
  deriving DecidableEq, Repr

namespace Room

/-- Double a capacity until it exceeds what is needed. -/
def double (capacity need : Nat) : Nat :=
  if need < capacity then capacity else capacity * Nat.pow 2 (Nat.log2 (need / capacity) + 1)

theorem lt_double {capacity : Nat} (need : Nat) (h : 0 < capacity) :
    need < double capacity need := by
  unfold double
  split
  · assumption
  · calc need < capacity * (need / capacity + 1) := Nat.lt_mul_div_succ need h
      _ ≤ capacity * Nat.pow 2 (Nat.log2 (need / capacity) + 1) :=
        Nat.mul_le_mul_left capacity Nat.lt_log2_self

def initial : Room :=
  ⟨32, 3, 3, 3⟩

/-- Make room for what `more` bytes of a text can hold, beside what is held already. -/
def enlarge (r : Room) (bytes cells rows more : Nat) : Room :=
  { r with
    bytes := double r.bytes (bytes + 2 * more)
    cells := double r.cells (max (cells + more) (r.mostCells - 1))
    rows := double r.rows (rows + 1 + more) }

def emptied (r : Room) : Room :=
  ⟨2, 2, 2, max r.mostCells r.cells⟩

end Room

/-- The rows gathered for a batch, latest first. -/
structure Batch where
  rows : List Row := []
  height : Nat := 0
  /-- The number of cells in each row. -/
  width : Nat := 0
  /-- The bytes of all cells, with one more for the end of each cell. -/
  bytes : Nat := 0
  room : Room
  /-- Whether rows were read again. -/
  again : Bool := false
  deriving DecidableEq, Repr

/-- The bytes of a row, with one more for the end of each cell. -/
def rowSize (row : Row) : Nat :=
  (row.map fun cell => cell.utf8ByteSize + 1).foldr (· + ·) 0

/-- The bytes of a row up to the last one of a cell. -/
def textSize (row : Row) : Nat :=
  rowSize (row.reverse.dropWhile (·.isEmpty)) - 1

namespace Batch

def cells (b : Batch) : Nat :=
  b.height * b.width

def enlarge (b : Batch) (more : Nat) : Batch :=
  { b with room := b.room.enlarge b.bytes b.cells b.height more }

def holds (b : Batch) (row : Row) : Bool :=
  (textSize row = 0 || b.bytes + textSize row ≤ b.room.bytes) &&
    b.cells + row.length ≤ b.room.cells

/-- The batch with one more row. The first row sets the width. The end of a cell that has no place
is not kept. -/
def add (b : Batch) (row : Row) (again : Bool) : Except ReadError Batch :=
  let width := if b.height = 0 then row.length else b.width
  let again := b.again || again
  let missing := width - row.length
  let bytes := min b.room.bytes (b.bytes + rowSize row)
  let room :=
    if missing = 0 then b.room
    else b.room.enlarge bytes (b.cells + row.length) b.height missing
  if width < row.length then malformed
  else if again && !b.holds row then malformed
  else if again && room.rows ≤ b.height + 1 then malformed
  else
    .ok {
      rows := row :: b.rows
      height := b.height + 1
      width := width
      bytes := bytes + missing
      room := room
      again := again }

end Batch

/-- Gather up to `limit` more rows. More characters are left in the block after a row than before it
when a block was begun, unless rows are read again. -/
def gather (delimiter : Char) : Nat → Reader → Batch → Except ReadError (Reader × Batch)
  | 0, r, b => .ok (r, b)
  | limit + 1, r, b =>
    match r.next delimiter with
    | none => .ok (r, b)
    | some (_, .unterminated) => malformed
    | some (again, .row row next) =>
      match b.add row again with
      | .error e => .error e
      | .ok b =>
        gather delimiter limit next <|
          if !again && r.place.left < next.place.left then b.enlarge next.place.bytes else b

def gatherFromHere (delimiter : Char) (limit : Nat) (r : Reader) (b : Batch) :
    Except ReadError (Reader × Batch) :=
  gather delimiter limit r.markHere (b.enlarge r.markHere.place.bytes)

/-- The batches after the first one, up to the first that is malformed. The first argument bounds
their number. -/
def laterBatches (delimiter : Char) (size : Nat) :
    Nat → Reader → Room → List (Except ReadError (List Row))
  | 0, _, _ => []
  | bound + 1, r, room =>
    match gatherFromHere delimiter size r { room := room } with
    | .error e => [.error e]
    | .ok (r, b) =>
      if b.rows.isEmpty then []
      else .ok b.rows.reverse :: laterBatches delimiter size bound r b.room.emptied

/-- The batches of a text, whose first line may be a header. Every batch but the last takes a
character at least. -/
def batchesOfText (delimiter : Char) (size : Nat) (hasHeader : Bool) (cs : List Char) :
    List (Except ReadError (List Row)) :=
  let start := Place.blockStart cs
  let r := if hasHeader then Reader.afterHeader delimiter start else Reader.ofPlace start
  let first := do
    let (r, b) ← gather delimiter 1 r (Batch.enlarge { room := .initial } start.bytes)
    gatherFromHere delimiter (size - 1) r b
  match first with
  | .error e => [.error e]
  | .ok (r, b) =>
    if b.rows.isEmpty then []
    else
      .ok b.rows.reverse ::
        laterBatches delimiter size (r.place.rest.length + 1) r b.room.emptied

end QueryPlan.Csv
