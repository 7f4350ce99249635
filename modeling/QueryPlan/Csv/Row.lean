/-!
# Rows of a delimited text

A text is a sequence of lines, and a line of cells. A cell that starts with a quote runs to the next
quote that is not doubled; what follows that quote is added as it stands. Lines that are empty or
hold blanks only are no rows.

A text comes in blocks, and the reader has a mark: the place after the last line feed, unless a
block or a batch began after that. A row that starts with blanks is read from the mark on. Where a
line feed ends the line before it, the mark is where the row starts. Where that line is ended by a
carriage return alone the mark lies before it, and the rows since the mark are read again.
-/
namespace QueryPlan.Csv

abbrev Row := List String

/-- Spaces and tabs are blanks, unless they separate cells. -/
def isBlank (delimiter c : Char) : Bool :=
  (c == ' ' || c == '\t') && c != delimiter

/-- The text of a cell, from its characters, latest first. It ends at the first null character. -/
def cellText (cell : List Char) : String :=
  String.ofList (cell.reverse.takeWhile (· != '\x00'))

/-- A place in a text: what follows it, and how many of these characters belong to its block. -/
structure Place where
  rest : List Char
  left : Nat
  deriving DecidableEq, Repr

/-- The number of characters in a block; the last block may have fewer. -/
def blockSize : Nat := 262144

namespace Place

def blockStart (cs : List Char) : Place :=
  ⟨cs, (cs.take blockSize).length⟩

/-- The place in front of some characters, where a new block starts if none of them is left. -/
def of (cs : List Char) (left : Nat) : Place :=
  if left = 0 then blockStart cs else ⟨cs, left⟩

def finish : Place :=
  ⟨[], 0⟩

/-- The bytes that are left of the block in UTF-8. -/
def bytes (p : Place) : Nat :=
  (p.rest.take p.left).foldl (fun n c => n + c.utf8Size) 0

@[simp] theorem of_pos {cs : List Char} {left : Nat} (h : 0 < left) : of cs left = ⟨cs, left⟩ := by
  simp [of, Nat.pos_iff_ne_zero.1 h]

theorem blockStart_of_length_le {cs : List Char} (h : cs.length ≤ blockSize) :
    blockStart cs = ⟨cs, cs.length⟩ := by
  simp [blockStart, List.take_of_length_le h]

end Place

/-- What a reader has read right before its place. -/
inductive Before where
  /-- The end of a line. -/
  | line
  /-- A carriage return that ended a line that is no row. -/
  | skippedReturn
  /-- The first cell of a row, which is empty. -/
  | emptyCell
  deriving DecidableEq, Repr

structure Reader where
  place : Place
  mark : Place
  before : Before := .line
  deriving DecidableEq, Repr

inductive Mode where
  /-- Before the first character of a cell. -/
  | cellStart
  /-- In a cell, outside quotes. -/
  | plain
  | quoted
  /-- After a quote inside quotes, which closes them or is doubled. -/
  | quoteSeen
  /-- After a carriage return that ended the row. -/
  | rowReturn
  deriving DecidableEq, Repr

structure Opening where
  place : Place
  mark : Place
  mode : Mode
  /-- The blanks the row starts with, latest first. -/
  cell : List Char
  /-- Whether rows are read again. -/
  again : Bool
  deriving DecidableEq, Repr

/-- Skip the lines that are no rows. The line at hand has started with some blanks, latest first,
or it is still to be seen whether a line feed belongs to the carriage return before it. A delimiter
at that point is skipped like a line feed. -/
def skipLines (delimiter : Char) (mark : Place) (blanks : List Char) (returned : Bool)
    (left : Nat) : List Char → Option Opening
  | [] => none
  | c :: cs =>
    let here := Place.of (c :: cs) left
    let mark := if left = 0 then here else mark
    let blanks := if left = 0 then [] else blanks
    let next : Place := ⟨cs, here.left - 1⟩
    if c = '\n' then skipLines delimiter next [] false next.left cs
    else if returned ∧ c = delimiter then skipLines delimiter mark [] false next.left cs
    else if c = '\r' then skipLines delimiter mark [] true next.left cs
    else if isBlank delimiter c then skipLines delimiter mark (c :: blanks) false next.left cs
    else if blanks.isEmpty then some ⟨here, mark, .cellStart, [], false⟩
    else if mark.left = here.left + blanks.length then some ⟨here, mark, .plain, blanks, false⟩
    else some ⟨mark, mark, .cellStart, [], true⟩

inductive Found where
  | row (row : Row) (next : Reader)
  /-- The text ends inside quotes. -/
  | unterminated
  deriving DecidableEq, Repr

/-- Read the rest of a row. The current cell and the finished ones are latest first. A carriage
return ends the row, and takes a line feed with it; a delimiter instead of that is the end of an
empty first cell of the next row. -/
def readCells (delimiter : Char) (mark : Place) (mode : Mode) (cell : List Char) (cells : Row)
    (left : Nat) : List Char → Found
  | [] =>
    match mode with
    | .quoted => .unterminated
    | .rowReturn => .row cells.reverse { place := .finish, mark := .finish }
    | _ => .row (cellText cell :: cells).reverse { place := .finish, mark := .finish }
  | c :: cs =>
    let here := Place.of (c :: cs) left
    let mark := if left = 0 then here else mark
    let next : Place := ⟨cs, here.left - 1⟩
    match mode with
    | .rowReturn =>
      .row cells.reverse <|
        if c = '\n' then { place := next, mark := next }
        else if c = delimiter then { place := next, mark := mark, before := .emptyCell }
        else { place := here, mark := mark }
    | .quoted =>
      if c = '"' then readCells delimiter mark .quoteSeen cell cells next.left cs
      else
        readCells delimiter (if c = '\n' then next else mark) .quoted (c :: cell) cells next.left cs
    | mode =>
      if c = '\n' then .row (cellText cell :: cells).reverse { place := next, mark := next }
      else if c = '\r' then
        readCells delimiter mark .rowReturn [] (cellText cell :: cells) next.left cs
      else if c = '"' ∧ mode = .cellStart then
        readCells delimiter mark .quoted [] cells next.left cs
      else if c = '"' ∧ mode = .quoteSeen then
        readCells delimiter mark .quoted (c :: cell) cells next.left cs
      else if c = delimiter then
        readCells delimiter mark .cellStart [] (cellText cell :: cells) next.left cs
      else readCells delimiter mark .plain (c :: cell) cells next.left cs

def skipCells (delimiter : Char) (mark : Place) (mode : Mode) (left : Nat) : List Char → Reader
  | [] => { place := .finish, mark := .finish }
  | c :: cs =>
    let here := Place.of (c :: cs) left
    let mark := if left = 0 then here else mark
    let next : Place := ⟨cs, here.left - 1⟩
    if mode = .quoted then
      skipCells delimiter (if c = '\n' then next else mark)
        (if c = '"' then .quoteSeen else .quoted) next.left cs
    else if c = '\n' then { place := next, mark := next }
    else if c = '\r' then { place := next, mark := mark, before := .skippedReturn }
    else if c = '"' ∧ (mode = .cellStart ∨ mode = .quoteSeen) then
      skipCells delimiter mark .quoted next.left cs
    else skipCells delimiter mark (if c = delimiter then .cellStart else .plain) next.left cs

namespace Reader

def ofPlace (p : Place) : Reader :=
  { place := p, mark := p }

def markHere (r : Reader) : Reader :=
  let here := Place.of r.place.rest r.place.left
  { r with place := here, mark := here }

/-- A reader after the first line of a text. The first character of the text opens quotes, ends the
line or belongs to a cell, whatever it is. -/
def afterHeader (delimiter : Char) (p : Place) : Reader :=
  match p.rest with
  | [] => ofPlace p
  | c :: cs =>
    let next : Place := ⟨cs, p.left - 1⟩
    if c = '\n' then ofPlace next
    else skipCells delimiter p (if c = '"' then .quoted else .plain) next.left cs

/-- The next row and whether rows are read again, unless no row is left. -/
def next (delimiter : Char) (r : Reader) : Option (Bool × Found) :=
  if r.before = .emptyCell then
    some (false, readCells delimiter r.mark .cellStart [] [""] r.place.left r.place.rest)
  else
    (skipLines delimiter r.mark [] (r.before = .skippedReturn) r.place.left r.place.rest).map
      fun o => (o.again, readCells delimiter o.mark o.mode o.cell [] o.place.left o.place.rest)

end Reader

/-- A quoted cell may hold delimiters, line ends and doubled quotes. -/
example : (Reader.ofPlace ⟨"\"a,\"\"b\n\",1\n \n2,".toList, 15⟩).next ',' =
    some (false, .row ["a,\"b\n", "1"] (.ofPlace ⟨" \n2,".toList, 4⟩)) := by decide

/-- After a carriage return alone a row that starts with a blank leads back to the mark. -/
example : (Reader.mk ⟨" b\n".toList, 3⟩ ⟨"a\r b\n".toList, 5⟩ .line).next ',' =
    some (true, .row ["a"] ⟨⟨" b\n".toList, 3⟩, ⟨"a\r b\n".toList, 5⟩, .line⟩) := by decide

end QueryPlan.Csv
