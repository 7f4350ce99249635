import QueryPlan.Schema.Inference
/-!
# Faults of delimited files

What can be wrong with a file that is read under a schema, each cause with what its message tells.
-/
namespace QueryPlan.Csv

inductive SourceFault where
  | missingFile
  /-- The path leads to something that cannot be opened for reading. -/
  | unreadableFile
  /-- The path, the settings, the bytes, the rows or the cells follow no rule. -/
  | malformed
  | width (expected found : Nat)
  | missingValue (column : String)
  | typeMismatch (parsed declared : List DataType)
  deriving DecidableEq, Repr

/-- The number of characters that a cell of a strict text may have. -/
def cellLimit : Nat := 131072

inductive RowFault where
  /-- A closing quote is followed by something else than the end of its cell. -/
  | afterQuote (delimiter : Char)
  | unclosed
  /-- A cell is longer than the limit. -/
  | tooLong
  deriving DecidableEq, Repr

inductive ReadError where
  | source (fault : SourceFault)
  | row (fault : RowFault)
  /-- The schema has a field at a position where a strict text has no column. -/
  | narrow
  /-- A number has no place in sixty-four bits. -/
  | overflow
  | frame (e : FrameError)
  deriving DecidableEq, Repr

def malformed {α : Type} : Except ReadError α :=
  .error (.source .malformed)

theorem malformed_eq_error_iff {α : Type} {e : ReadError} :
    (malformed : Except ReadError α) = .error e ↔ e = .source .malformed := by
  rw [malformed, Except.error.injEq, eq_comm]

def fileMessage (path text : String) : String :=
  path ++ ": " ++ text

def shownFault (path text : String) : String :=
  "DataSourceError(" ++ Text.quoted (fileMessage path text) ++ ")"

def SourceFault.message (path : String) (fault : SourceFault) : String :=
  fileMessage path <|
    match fault with
    | .missingFile => "[Errno 2] No such file or directory: " ++ Text.quoted path
    | .unreadableFile => "the file cannot be opened"
    | .malformed => "the content is malformed"
    | .width expected found =>
      "expected " ++ toString expected ++ " fields per row, found " ++ toString found
    | .missingValue column => "missing value in non-nullable column " ++ column
    | .typeMismatch parsed declared =>
      "parsed types " ++ Text.quotedList (parsed.map DataType.name) ++
        " do not match declared types " ++ Text.quotedList (declared.map DataType.name)

def RowFault.message : RowFault → String
  | .afterQuote delimiter =>
    "'" ++ String.singleton delimiter ++ "' expected after " ++ "'" ++ "\"'"
  | .unclosed => "unexpected end of data"
  | .tooLong => "field larger than field limit (" ++ toString cellLimit ++ ")"

def narrowMessage : String := "list index out of range"

end QueryPlan.Csv
