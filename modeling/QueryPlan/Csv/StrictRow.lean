import QueryPlan.Csv.Fault
import QueryPlan.Csv.Row
import QueryPlan.Csv.Text
import QueryPlan.Text.Blank
/-!
# Rows of a strict text

A text whose cells are separated by a character outside ASCII has a stricter grammar: quotes must be
closed, a closing quote ends its cell, and no cell is longer than a limit. A row is blank when it has
no cell, or a single one that holds only blanks. Blank rows count as rows when batches are made, and
are dropped after that. The first two rows that are not blank are looked for first, and a fault among
them makes the file malformed; a fault in the header, or in later rows, is reported as it is.

The first row sets how many columns there are, and they must be as many as a schema has fields. Only
then the mark is taken off that the text may start with, so a row of nothing but the mark is one.
-/
namespace QueryPlan.Csv

inductive StrictMode where
  | rowStart
  /-- After a carriage return that ended a row; a line feed belongs to it. -/
  | rowReturn
  | cellStart
  | plain
  | quoted
  /-- After a quote inside quotes, which closes them or is doubled. -/
  | quoteSeen
  deriving DecidableEq, Repr

def strictCellText (cell : List Char) : String :=
  String.ofList cell.reverse

/-- The row that a line end makes. A line that has not begun has no cells. -/
def strictRowOf (mode : StrictMode) (cell : List Char) (cells : Row) : Row :=
  if mode = .rowStart ∨ mode = .rowReturn then [] else (strictCellText cell :: cells).reverse

/-- What there is of a row that ends with a fault. -/
structure BrokenRow where
  cells : Row
  fault : RowFault
  deriving DecidableEq, Repr

/-- The rows of a strict text, up to the first fault in its quotes. The current cell and the finished
ones of a row are latest first. -/
def strictRows (delimiter : Char) (mode : StrictMode) (cell : List Char) (cells : Row) :
    List Char → List (Except BrokenRow Row)
  | [] =>
    match mode with
    | .rowStart | .rowReturn => []
    | .quoted => [.error ⟨strictRowOf mode cell cells, .unclosed⟩]
    | _ => [.ok (strictRowOf mode cell cells)]
  | c :: cs =>
    if mode = .quoted then
      if c = '"' then strictRows delimiter .quoteSeen cell cells cs
      else strictRows delimiter .quoted (c :: cell) cells cs
    else if c = '\n' ∧ mode = .rowReturn then strictRows delimiter .rowStart [] [] cs
    else if c = '\n' ∨ c = '\r' then
      .ok (strictRowOf mode cell cells) ::
        strictRows delimiter (if c = '\n' then .rowStart else .rowReturn) [] [] cs
    else if c = delimiter then
      strictRows delimiter .cellStart [] (strictCellText cell :: cells) cs
    else if c = '"' ∧ mode = .quoteSeen then strictRows delimiter .quoted (c :: cell) cells cs
    else if c = '"' ∧ mode ≠ .plain then strictRows delimiter .quoted [] cells cs
    else if mode = .quoteSeen then
      [.error ⟨strictRowOf mode cell cells, .afterQuote delimiter⟩]
    else strictRows delimiter .plain (c :: cell) cells cs

def isTooLong (row : Row) : Bool :=
  row.any (cellLimit < ·.length)

/-- A row with the limit of its cells. A cell that is too long comes before the fault that the row
ends with. -/
def limited : Except BrokenRow Row → Except RowFault Row
  | .ok row => if isTooLong row then .error .tooLong else .ok row
  | .error broken => .error (if isTooLong broken.cells then .tooLong else broken.fault)

/-- What succeeds at the beginning of a list, and the first failure if there is one. -/
def upToFailure {ε α : Type} : List (Except ε α) → List (Except ε α)
  | [] => []
  | .error e :: _ => [.error e]
  | .ok a :: xs => .ok a :: upToFailure xs

/-- The rows of what follows the end of a line, up to the first fault. -/
def strictLines (delimiter : Char) (mode : StrictMode) (cs : List Char) :
    List (Except RowFault Row) :=
  upToFailure ((strictRows delimiter mode [] [] cs).map limited)

/-- No cell, or a single one that holds only blanks. -/
def isBlankRow : Row → Bool
  | [] => true
  | [cell] => cell.toList.all Text.isBlank
  | _ => false

/-- Consecutive groups of `size` items, the last one shorter when the items run out. The first
argument bounds the number of groups. -/
def groupsUpTo {α : Type} (size : Nat) : Nat → List α → List (List α)
  | 0, _ => []
  | _, [] => []
  | bound + 1, items => items.take size :: groupsUpTo size bound (items.drop size)

def groups {α : Type} (size : Nat) (items : List α) : List (List α) :=
  groupsUpTo size items.length items

theorem groupsUpTo_of_length_le {α : Type} {size bound : Nat} {items : List α} (hs : 0 < size)
    (hb : items.length ≤ bound) : groupsUpTo size bound items = groups size items := by
  suffices h : ∀ n m (xs : List α), xs.length ≤ n → xs.length ≤ m →
      groupsUpTo size n xs = groupsUpTo size m xs from h _ _ _ hb (Nat.le_refl _)
  intro n
  induction n with
  | zero =>
    intro m xs hn _
    have hx : xs = [] := List.length_eq_zero_iff.1 (Nat.le_zero.1 hn)
    subst hx
    cases m <;> rfl
  | succ n ih =>
    intro m xs hn hm
    cases xs with
    | nil => cases m <;> rfl
    | cons x xs =>
      obtain ⟨m, rfl⟩ : ∃ k, m = k + 1 := ⟨m - 1, by simp at hm; omega⟩
      simp only [groupsUpTo]
      have hl : ((x :: xs).drop size).length ≤ xs.length := by
        rw [List.length_drop, List.length_cons]
        omega
      rw [List.length_cons] at hn hm
      rw [ih m _ (by omega) (by omega)]

@[simp] theorem groups_nil {α : Type} (size : Nat) : groups size ([] : List α) = [] := rfl

theorem groups_of_ne_nil {α : Type} {size : Nat} {items : List α} (hs : 0 < size)
    (hi : items ≠ []) : groups size items = items.take size :: groups size (items.drop size) := by
  cases items with
  | nil => exact absurd rfl hi
  | cons x xs =>
    have hl : ((x :: xs).drop size).length ≤ xs.length := by
      rw [List.length_drop, List.length_cons]
      omega
    rw [← groupsUpTo_of_length_le hs hl]
    rfl

def splitBlank : List (Except RowFault Row) →
    Except ReadError (Option (Row × List (Except RowFault Row)))
  | [] => .ok none
  | .error _ :: _ => malformed
  | .ok row :: rows => if isBlankRow row then splitBlank rows else .ok (some (row, rows))

/-- The first row that is not blank, and the rows after it that batches are made of: the next one that
is not blank, and all rows after that. -/
def leadingRows (rows : List (Except RowFault Row)) :
    Except ReadError (Option (Row × List (Except RowFault Row))) := do
  match ← splitBlank rows with
  | none => return none
  | some (first, rows) =>
    match ← splitBlank rows with
    | none => return some (first, [])
    | some (second, rows) => return some (first, Except.ok second :: rows)

/-- What follows a mark. Quotes that are opened there are taken off, and have to be closed. -/
def unmarked : List Char → Option (List Char)
  | [] => some []
  | c :: cs =>
    if c = '"' then
      match cs.dropWhile (· != '"') with
      | [] => none
      | _ :: behind => some (cs.takeWhile (· != '"') ++ behind)
    else some (c :: cs)

def isMarked (row : Row) : Bool :=
  row.head?.any fun cell => cell.toList.head? = some byteOrderMark

/-- A row without the mark that it may start with. -/
def unmarkRow : Row → Option Row
  | [] => some []
  | cell :: cells =>
    if isMarked (cell :: cells) then
      (unmarked cell.toList.tail).map fun text => String.ofList text :: cells
    else some (cell :: cells)

/-- The batch that a group of rows makes, if any of them is not blank. No row may have more than
`width` cells. -/
def strictBatch? (width : Nat) (group : List (Except RowFault Row)) :
    Option (Except ReadError (List Row)) :=
  match group.mapM id with
  | .error e => some (.error (.row e))
  | .ok rows =>
    let rows := rows.filter (!isBlankRow ·)
    if rows.isEmpty then none
    else if rows.any (width < ·.length) then some malformed
    else some (.ok rows)

/-- What is wrong with a text that has too few columns, from the first group of its rows. -/
def narrowError (width : Nat) (group : List (Except RowFault Row)) : ReadError :=
  match strictBatch? width group with
  | some (.error e) => e
  | _ => .narrow

/-- The batches of rows with some number of columns, for a schema with some number of fields. -/
def strictGroups (fields size width : Nat) (rows : List (Except RowFault Row)) :
    List (Except ReadError (List Row)) :=
  if width < fields then [.error (narrowError width (rows.take size))]
  else (groups size rows).filterMap (strictBatch? width)

/-- The batches of a strict text after its header. The mark can only be in front of the first row of
the text. -/
def strictBody (fields size : Nat) (atStart : Bool) (rows : List (Except RowFault Row)) :
    List (Except ReadError (List Row)) :=
  match leadingRows rows with
  | .error e => [.error e]
  | .ok none => []
  | .ok (some (first, rows)) =>
    match if atStart then unmarkRow first else some first with
    | none => [malformed]
    | some row => strictGroups fields size first.length (.ok row :: rows)

def startsBlank : List (Except RowFault Row) → Bool
  | .ok row :: _ => isBlankRow row
  | _ => false

def strictBatches (fields : Nat) (delimiter : Char) (size : Nat) (hasHeader : Bool)
    (cs : List Char) : List (Except ReadError (List Row)) :=
  let rows := strictLines delimiter .rowStart cs
  if hasHeader then
    match rows with
    | [] => []
    | .error e :: _ => [.error (.row e)]
    | .ok _ :: rows => strictBody fields size false rows
  else strictBody fields size (!startsBlank rows) rows

/-- A closing quote must end its cell. -/
example : strictLines 'é' .rowStart "aé\"b\"c\n".toList = [.error (.afterQuote 'é')] :=
  rfl

/-- The mark of a text is taken off, and the quotes behind it, once its rows are told apart. -/
example : strictBatches 2 'é' 1 false "\ufeff\"a\"b\"é\"c\"\n".toList =
    [.ok [["ab\"", "c"]]] :=
  rfl

end QueryPlan.Csv
