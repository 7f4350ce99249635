import QueryPlan.Csv.Batch
import QueryPlan.Csv.Source
import QueryPlan.Csv.StrictColumn
import QueryPlan.Csv.StrictRow
import QueryPlan.Csv.Text
import QueryPlan.Log
/-!
# Scanning a delimited file

A scan reads the rows of a file in batches. A batch is read completely before the next: its rows,
then every column of the schema from left to right, projected or not, then its width, and last the
projected columns against the schema. The first failure is the outcome. The first row of a batch
sets how many cells its rows may have, and the first row of the file how many columns there are.
-/
namespace QueryPlan

inductive ScanError where
  /-- These names of the projection do not resolve, in order of first occurrence. -/
  | unresolved (first : UnknownColumn) (others : List UnknownColumn)
  | read (path : String) (e : Csv.ReadError)
  deriving DecidableEq, Repr

namespace Csv

def checkWidth (schema : Schema) (found : Nat) : Except ReadError Unit :=
  if found = schema.width then .ok () else .error (.source (.width schema.width found))

/-- The first field that may not be nullable although the frame lacks a cell under its name. -/
def missingField? (frame : Frame) (expected : Schema) : Option Field :=
  expected.fields.find? fun f => !f.nullable && frame.hasMissing f.name

/-- A batch must conform to the schema: no cell missing where none may be, and the same types. -/
def checkBatch (frame : Frame) (expected : Schema) : Except ReadError Unit :=
  match missingField? frame expected with
  | some f => .error (.source (.missingValue f.name))
  | none =>
    match Schema.ofFrame frame with
    | .error e => .error (.frame e)
    | .ok parsed =>
      if parsed.types = expected.types then .ok ()
      else .error (.source (.typeMismatch parsed.types expected.types))

/-- The cells of the rows at one position. A row that is too short lacks its last cells. -/
def cellsAt (rows : List Row) (position : Nat) : List (Option String) :=
  rows.map fun row => row[position]?.bind present?

def Grammar.readColumn : Grammar → DataType → Bool → Texts → Except ReadError Stored
  | .lenient => Csv.readColumn
  | .strict => readStrictColumn

def readField (grammar : Grammar) (rows : List Row) (f : Field) (position : Nat) :
    Except ReadError Column := do
  let (storage, cells) ← grammar.readColumn f.type f.nullable (cellsAt rows position)
  return ⟨.text f.name, storage.name, cells⟩

/-- The columns of a schema, as many as the file has. -/
def readColumns (grammar : Grammar) (schema : Schema) (fileWidth : Nat) (rows : List Row) :
    Except ReadError (List Column) :=
  ((schema.fields.take fileWidth).zipIdx).mapM fun (f, position) =>
    readField grammar rows f position

/-- The frame of a batch. Each column of the batch is converted at once; that a very long batch could
be converted in pieces is left out. -/
def readBatch (grammar : Grammar) (schema expected : Schema) (fileWidth : Nat)
    (rows : List Row) : Except ReadError Frame := do
  let columns ← readColumns grammar schema fileWidth rows
  checkWidth schema fileWidth
  let frame := Frame.restrict ⟨columns⟩ expected.names
  checkBatch frame expected
  return frame

def fileWidth : List (Except ReadError (List Row)) → Nat
  | .ok (row :: _) :: _ => row.length
  | _ => 0

def readBatches (grammar : Grammar) (schema expected : Schema)
    (batches : List (Except ReadError (List Row))) : Except ReadError (List Frame) :=
  batches.mapM fun batch => do
    readBatch grammar schema expected (fileWidth batches) (← batch)

def batchesOf (config : Config) (fields : Nat) (delimiter : Char) (text : List Char) :
    List (Except ReadError (List Row)) :=
  match Grammar.ofDelimiter delimiter with
  | .lenient => batchesOfText delimiter config.batchSize config.hasHeader text
  | .strict => strictBatches fields delimiter config.batchSize config.hasHeader text

/-- The delimiter of a file and its text, if the delimiter is a single character. The file is decoded
as a whole before any batch is read. -/
def delimited? (config : Config) (bytes : ByteArray) : Option (Char × List Char) :=
  match config.delimiter.toList with
  | [delimiter] => (decode (.ofDelimiter delimiter) bytes).map fun text => (delimiter, text)
  | _ => none

/-- The frames of a file. A delimiter of several characters, which could be taken as a pattern, is left
out: the file is malformed. -/
def readFile (config : Config) (schema expected : Schema) (bytes : ByteArray) :
    Except ReadError (List Frame) :=
  match delimited? config bytes with
  | some (delimiter, text) =>
    readBatches (.ofDelimiter delimiter) schema expected
      (batchesOf config schema.width delimiter text)
  | none => malformed

/-- Whether a mark is taken off the first row of a text, which may be blank without it. -/
def takesMark (config : Config) (delimiter : Char) (text : List Char) : Bool :=
  match Grammar.ofDelimiter delimiter, strictLines delimiter .rowStart text with
  | .strict, .ok row :: _ => !config.hasHeader && isMarked row
  | _, _ => false

end Csv

namespace CsvSource

def unresolved (s : CsvSource) (projection : List String) : List UnknownColumn :=
  projection.eraseDups.filterMap fun name =>
    match s.schema.resolve name with
    | .error e => some e
    | .ok _ => none

/-- The columns a projection asks for, in file order; an empty one asks for all. -/
def projected (s : CsvSource) (projection : List String) : List String :=
  s.schema.names.filter fun name => projection.isEmpty || projection.contains name

def logged (message : String) : LogRecord :=
  ⟨.debug, .source, message⟩

/-- What reading a file comes to. A line feed cannot separate cells, and then the file is not looked
at. -/
def read (s : CsvSource) (expected : Schema) (file : Except Csv.SourceFault ByteArray) :
    Except Csv.ReadError (List Frame) := do
  if s.config.delimiter = "\n" then Csv.malformed
  let bytes ← file.mapError .source
  Csv.readFile s.config s.schema expected bytes

def takesMark (s : CsvSource) (file : Except Csv.SourceFault ByteArray) : Bool :=
  (file.toOption.bind (Csv.delimited? s.config)).any fun (delimiter, text) =>
    Csv.takesMark s.config delimiter text

/-- A file without a row is empty; one whose rows are all dropped is not. -/
def counted (s : CsvSource) (file : Except Csv.SourceFault ByteArray) (frames : List Frame) :
    LogRecord :=
  if frames.isEmpty && !s.takesMark file then logged (s.path ++ " is empty")
  else logged ("Read " ++ toString frames.length ++ " batches from " ++ s.path)

def scanFile (s : CsvSource) (expected : Schema) (file : Except Csv.SourceFault ByteArray) :
    Outcome ScanError (List Frame) :=
  match s.read expected file with
  | .error e => .fail (.read s.path e)
  | .ok frames => ⟨[s.counted file frames], .ok frames⟩

/-- The projected columns of a file, batch by batch. Names are resolved before the file is opened,
and then nothing has been logged. -/
def scan (files : String → Except Csv.SourceFault ByteArray) (s : CsvSource)
    (projection : List String) : Outcome ScanError (List Frame) :=
  match s.unresolved projection with
  | e :: es => .fail (.unresolved e es)
  | [] =>
    let names := s.projected projection
    match s.schema.select names with
    | .error e => .fail (.unresolved e [])
    | .ok expected =>
      (s.scanFile expected (files s.path)).after
        [logged ("Scanning " ++ s.path ++ " for columns " ++ Text.quotedList names)]

end CsvSource
end QueryPlan
