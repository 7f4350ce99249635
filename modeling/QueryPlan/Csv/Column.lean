import QueryPlan.Csv.Fault
import QueryPlan.Csv.Spelling
import QueryPlan.Frame
/-!
# Columns of a batch

The texts of a column become cells of the column's type all together: a rule may ask that every
present cell is a number, or that every one is a word for a truth value. A column that follows no
rule of its type is malformed.

A column that may not be nullable is read as whole numbers of the signed range first, then as whole
numbers of the unsigned range if the first text that fails leads out of the signed one. A column
that may be nullable is read as numbers. A whole number beyond the signed range clashes there with a
missing cell or a negative number, and in a column with a clash each text stands for itself.
-/
namespace QueryPlan.Csv

/-- The limit of the signed range, two to the sixty-third. Its negative is the least number. -/
def signedLimit : Int := 9223372036854775808

def unsignedLimit : Int := 18446744073709551616

def inSigned (n : Int) : Bool :=
  -signedLimit ≤ n && n < signedLimit

def wholeSigned? (x : Binary64) : Option Int := do
  let n ← x.toInt?
  if inSigned n then some n else none

def bit? (n : Int) : Option Bool :=
  match n with
  | 0 => some false
  | 1 => some true
  | _ => none

abbrev Texts := List (Option String)

def Texts.present (cells : Texts) : List String :=
  cells.filterMap id

def Texts.complete (cells : Texts) : Bool :=
  cells.all (·.isSome)

def convert {α : Type} (f : α → Option Cell) (cells : List (Option α)) : Option (List Cell) :=
  cells.mapM fun
    | none => some .missing
    | some a => f a

abbrev Stored := Storage × List Cell

def storedAs (storage : Storage) (cells : Option (List Cell)) : Except ReadError Stored :=
  match cells with
  | some cells => .ok (storage, cells)
  | none => malformed

inductive Whole where
  | signed (ns : List Int)
  | unsigned (ns : List Int)
  /-- Some text leads out of the range. -/
  | overflow
  /-- A number beyond the signed range stands beside a missing cell or a negative number. -/
  | conflict
  /-- Some text is no whole number. -/
  | mixed
  deriving DecidableEq, Repr

/-- The values of texts that are all in a range, or how the first that is not reads. -/
def rangedValues (least limit : Int) : List String → Except Ranged (List Int)
  | [] => .ok []
  | text :: texts =>
    match readRanged least limit text with
    | .value n => (rangedValues least limit texts).map (n :: ·)
    | failure => .error failure

/-- Texts as whole numbers of the unsigned range. A text that starts with a minus is not looked at
any further. -/
def unsignedWhole (cells : Texts) : Whole :=
  match rangedValues 0 unsignedLimit (cells.present.filter (!startsNegative ·)) with
  | .error .beyond => .overflow
  | .error _ => .mixed
  | .ok ns =>
    let negative := cells.present.any startsNegative
    if ns.any (signedLimit ≤ ·) && (negative || !cells.complete) then .conflict
    else if negative then .overflow
    else .unsigned ns

def readWhole (cells : Texts) : Whole :=
  match rangedValues (-signedLimit) signedLimit cells.present with
  | .ok ns => .signed ns
  | .error .beyond => unsignedWhole cells
  | .error _ => .mixed

/-- Loosely written integers of the signed range, none missing. The first text that is none decides
the error. -/
def looseIntegers : Texts → Except ReadError (List Int)
  | [] => .ok []
  | cell :: cells =>
    match cell.bind Loose.int? with
    | none => malformed
    | some n => if inSigned n then (looseIntegers cells).map (n :: ·) else .error .overflow

/-- Cells that can be read, but whose numbers differ from what their texts say. -/
def refused (read : Except ReadError (List Int)) : Except ReadError Stored :=
  read.bind fun _ => malformed

/-- Integers, none missing: whole numbers, or else numbers that are whole, or else words. Beyond the
signed range whole numbers stay as they are. -/
def readInt64 (cells : Texts) : Except ReadError Stored :=
  match readWhole cells with
  | .signed ns => if cells.complete then .ok (.int64, ns.map .integer) else malformed
  | .unsigned ns => .ok (.uint64, ns.map .integer)
  | .overflow => .error .overflow
  | .conflict => malformed
  | .mixed =>
    if cells.present.all fun t => (number? t).isSome then
      if cells.complete then
        storedAs .int64 (convert (fun t => return .integer (← wholeSigned? (← number? t))) cells)
      else malformed
    else if cells.present.all fun t => (word? t).isSome then
      if cells.complete then
        storedAs .int64 (convert (fun t => return .integer (if ← word? t then 1 else 0)) cells)
      else malformed
    else refused (looseIntegers cells)

/-- Numbers, some missing; or words, some missing; or whole numbers. -/
def readFloat64 (cells : Texts) : Except ReadError Stored :=
  match convert (fun t => return .float (← number? t)) cells with
  | some converted => .ok (.float64, converted)
  | none =>
    match convert (fun t => return .float (.ofInt (if ← word? t then 1 else 0))) cells with
    | some converted => .ok (.float64, converted)
    | none =>
      match readWhole cells with
      | .signed ns | .unsigned ns =>
        if cells.complete then .ok (.float64, ns.map fun n => .float (.ofInt n)) else malformed
      | _ => malformed

/-- Truth values, none missing: words, or whole numbers that are zero or one, or numbers that are.
-/
def readBoolean (cells : Texts) : Except ReadError Stored :=
  if !cells.complete then malformed
  else
    match convert (fun t => return .boolean (← word? t)) cells with
    | some converted => .ok (.bool, converted)
    | none =>
      match readWhole cells with
      | .signed ns =>
        storedAs .bool (convert (fun n => return .boolean (← bit? n)) (ns.map some))
      | .mixed =>
        storedAs .bool
          (convert (fun t => return .boolean (← bit? (← (← number? t).toInt?))) cells)
      | _ => malformed

inductive Numbers where
  | whole (ns : List (Option Int))
  | real (xs : List (Option Binary64))
  /-- A number beyond the signed range stands beside a missing cell or a negative number. -/
  | clash
  deriving DecidableEq, Repr

/-- Whether a whole number beyond the signed range clashes with a missing cell or a negative whole
number, if all texts before that are numbers, and the whole ones among them are in a range. A number
of one kind or the other may have been seen before. -/
def clashes (gap big : Bool) : Texts → Option Bool
  | [] => some (gap && big)
  | cell :: cells =>
    if gap && big then some true
    else
      match cell with
      | none => clashes true big cells
      | some text => do
        let _ ← number? text
        match integer? text with
        | none => clashes gap big cells
        | some n =>
          if n < -signedLimit ∨ unsignedLimit ≤ n then none
          else clashes (gap || n < 0) (big || signedLimit ≤ n) cells

def readNumbers (cells : Texts) : Option Numbers := do
  if ← clashes false false cells then return .clash
  else if cells.present.all fun t => (integer? t).isSome then
    return .whole (cells.map (·.bind integer?))
  else return .real (cells.map (·.bind number?))

/-- Numbers that cannot all be integers. The greatest of them is converted first, and where it is
not whole each is converted by itself. An infinite number has no place, and neither has one that
lies beyond the signed range. -/
def refuseReals (xs : List Binary64) : Except ReadError Stored :=
  match Binary64.greatest? xs with
  | none | some (.infinite _) => .error .overflow
  | some greatest =>
    if greatest.toInt?.isNone && xs.any (fun x => !x.truncate?.any inSigned) then .error .overflow
    else malformed

/-- Integers, some missing: whole numbers, or else numbers that are whole. Beyond the signed range
whole numbers are taken modulo two to the sixty-fourth. -/
def readNullableInt64 (cells : Texts) : Except ReadError Stored :=
  match readNumbers cells with
  | none => malformed
  | some .clash => refused (looseIntegers (cells.present.map some))
  | some (.whole ns) =>
    storedAs .nullableInt64 (convert (fun n => return .integer (n.bmod (Nat.pow 2 64))) ns)
  | some (.real xs) =>
    match convert (fun x => return .integer (← wholeSigned? x)) xs with
    | some converted => .ok (.nullableInt64, converted)
    | none => refuseReals (xs.filterMap id)

def looseFloat? (text : String) : Option Cell :=
  (Loose.real? text).map fun
    | .number x => .float x
    | .indefinite => .missing

/-- Numbers, some missing. Whole numbers are converted exactly when nothing else stands among them,
and so is everything in a column with a clash. -/
def readNullableFloat64 (cells : Texts) : Except ReadError Stored :=
  match readNumbers cells with
  | none => malformed
  | some .clash => storedAs .nullableFloat64 (convert looseFloat? cells)
  | some (.whole ns) => storedAs .nullableFloat64 (convert (fun n => some (.float (.ofInt n))) ns)
  | some (.real xs) => storedAs .nullableFloat64 (convert (fun x => some (.float x)) xs)

def readNullableBoolean (cells : Texts) : Except ReadError Stored :=
  storedAs .nullableBoolean (convert (fun t => return .boolean (← truthText? t)) cells)

def readText (cells : Texts) : Except ReadError Stored :=
  .ok (.string, cells.map fun
    | none => .missing
    | some text => .text text)

def readColumn : DataType → Bool → Texts → Except ReadError Stored
  | .utf8, _ => readText
  | .int64, false => readInt64
  | .int64, true => readNullableInt64
  | .boolean, false => readBoolean
  | .boolean, true => readNullableBoolean
  | .float64, false => readFloat64
  | .float64, true => readNullableFloat64

end QueryPlan.Csv
