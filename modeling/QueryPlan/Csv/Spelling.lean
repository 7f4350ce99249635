import QueryPlan.Number.Loose
/-!
# Spellings of cells

What a cell's text stands for: the mark of a missing cell, a number, a whole number, a truth value.
A numeral has its quick value here.
-/
namespace QueryPlan.Csv

def missingSpellings : List String :=
  ["", "#N/A", "#N/A N/A", "#NA", "-1.#IND", "-1.#QNAN", "-NaN", "-nan", "1.#IND", "1.#QNAN",
   "<NA>", "N/A", "NA", "NULL", "NaN", "None", "n/a", "nan", "null"]

def present? (text : String) : Option String :=
  if missingSpellings.contains text then none else some text

/-- The words for infinite numbers, in any letter case. -/
def infinity? (text : String) : Option Binary64 :=
  let word := String.ofList (text.toList.map Char.toLower)
  if ["inf", "+inf", "infinity", "+infinity"].contains word then some (.infinite false)
  else if ["-inf", "-infinity"].contains word then some (.infinite true)
  else none

def number? (text : String) : Option Binary64 :=
  ((Numeral.ofChars? text.toList).bind Numeral.quick?).or (infinity? text)

/-- The whole number a text is a numeral of, without a point or a power. -/
def integer? (text : String) : Option Int := do
  let n ← Numeral.ofChars? text.toList
  if n.isWhole then some n.toInt else none

/-- The words for truth values, in any letter case. -/
def word? (text : String) : Option Bool :=
  match String.ofList (text.toList.map Char.toLower) with
  | "true" => some true
  | "false" => some false
  | _ => none

/-- The words for truth values, all in one case or with a capital. -/
def exactWord? (text : String) : Option Bool :=
  if ["True", "TRUE", "true"].contains text then some true
  else if ["False", "FALSE", "false"].contains text then some false
  else none

def truthText? (text : String) : Option Bool :=
  if text = "1" ∨ text = "1.0" then some true
  else if text = "0" ∨ text = "0.0" then some false
  else exactWord? text

inductive Ranged where
  | value (n : Int)
  /-- It starts with digits that lead out of the range, whatever follows them. -/
  | beyond
  | other
  deriving DecidableEq, Repr

def readRanged (least limit : Int) (text : String) : Ranged :=
  let (negative, cs) := Numeral.takeSign (text.toList.dropWhile Numeral.isSpace)
  let (digits, rest) := Numeral.takeDigits cs
  let n := Numeral.signedValue negative digits
  if digits.isEmpty then .other
  else if n < least ∨ limit ≤ n then .beyond
  else if rest.all Numeral.isSpace then .value n
  else .other

def startsNegative (text : String) : Bool :=
  (text.toList.dropWhile Numeral.isSpace).head? == some '-'

end QueryPlan.Csv
