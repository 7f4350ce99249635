/-!
# The text of a file

A file is read as strict UTF-8. Its grammar is lenient when an ASCII character separates cells, and
strict otherwise. A byte order mark at the very beginning is not part of a lenient text; in a strict
one it belongs to the first row.
-/
namespace QueryPlan.Csv

/-- The rules that a text follows: those of a strict text when the delimiter lies outside ASCII. -/
inductive Grammar where
  | lenient
  | strict
  deriving DecidableEq, Repr

def Grammar.ofDelimiter (delimiter : Char) : Grammar :=
  if delimiter.toNat < 128 then .lenient else .strict

def byteOrderMark : Char :=
  '\ufeff'

def dropMark : List Char → List Char
  | [] => []
  | c :: cs => if c = byteOrderMark then cs else c :: cs

def Grammar.textOf : Grammar → List Char → List Char
  | .lenient, cs => dropMark cs
  | .strict, cs => cs

def decode (grammar : Grammar) (bytes : ByteArray) : Option (List Char) :=
  (String.fromUTF8? bytes).map fun text => grammar.textOf text.toList

end QueryPlan.Csv
