import QueryPlan.Csv.Column
/-!
# Columns of a strict text

In a text with a strict grammar the columns of numbers and truth values that may not be nullable are
converted more freely. They are read as numbers, or else as words for truth values, or else each
text stands for itself; what comes of that is turned into the column's type. The other columns are
read as everywhere. A column of truth values or of floats is malformed if a cell is missing beside a
clash; that a text which marks a missing cell could stand for itself there is left out.
-/
namespace QueryPlan.Csv

/-- The integer that is left of a number without its fraction. What lies beyond the signed range
becomes its least number; an infinite number becomes none. -/
def truncateSigned? (x : Binary64) : Option Int := do
  let n ← x.truncate?
  return if inSigned n then n else -signedLimit

def Texts.areWords (cells : Texts) : Bool :=
  cells.present.all fun t => (exactWord? t).isSome

def readStrictInt64 (cells : Texts) : Except ReadError Stored :=
  match readNumbers cells with
  | some (.whole ns) =>
    if cells.complete then
      storedAs .int64 (convert (fun n => return .integer (n.bmod (Nat.pow 2 64))) ns)
    else malformed
  | some (.real xs) =>
    if cells.complete then
      storedAs .int64 (convert (fun x => return .integer (← truncateSigned? x)) xs)
    else malformed
  | some .clash => refused (looseIntegers cells)
  | none =>
    if cells.areWords then
      if cells.complete then
        storedAs .int64 (convert (fun t => return .integer (if ← exactWord? t then 1 else 0)) cells)
      else malformed
    else (looseIntegers cells).map fun ns => (.int64, ns.map .integer)

def readStrictFloat64 (cells : Texts) : Except ReadError Stored :=
  match readNumbers cells with
  | some (.whole ns) =>
    if cells.complete then
      storedAs .float64 (convert (fun n => some (.float (.ofInt n))) ns)
    else storedAs .float64 (convert (fun t => return .float (← number? t)) cells)
  | some (.real xs) => storedAs .float64 (convert (fun x => some (.float x)) xs)
  | some .clash =>
    if cells.complete then storedAs .float64 (convert looseFloat? cells) else malformed
  | none =>
    if cells.areWords then
      storedAs .float64
        (convert (fun t => return .float (.ofInt (if ← exactWord? t then 1 else 0))) cells)
    else storedAs .float64 (convert looseFloat? cells)

/-- Truth values, none missing. A number is true unless it is zero, and a text is true unless all of
them are words. -/
def readStrictBoolean (cells : Texts) : Except ReadError Stored :=
  if !cells.complete then malformed
  else
    match readNumbers cells with
    | some (.whole ns) => storedAs .bool (convert (fun n => some (.boolean (n != 0))) ns)
    | some (.real xs) => storedAs .bool (convert (fun x => some (.boolean (x.rank != 0))) xs)
    | some .clash => .ok (.bool, cells.map fun _ => .boolean true)
    | none =>
      if cells.areWords then
        storedAs .bool (convert (fun t => return .boolean (← exactWord? t)) cells)
      else .ok (.bool, cells.map fun _ => .boolean true)

def readStrictColumn : DataType → Bool → Texts → Except ReadError Stored
  | .int64, false => readStrictInt64
  | .float64, false => readStrictFloat64
  | .boolean, false => readStrictBoolean
  | type, nullable => readColumn type nullable

end QueryPlan.Csv
