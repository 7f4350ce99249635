import QueryPlan.Number.Numeral
import QueryPlan.Text.Blank
import QueryPlan.Text.Digit
/-!
# Loosely written numbers

A number may be written more freely than a numeral: with the digits of any script, with single
underscores between digits, and with blanks of any script around it. Its value is exact if it is
whole, and else the nearest binary64 number.
-/
namespace QueryPlan.Loose

/-- A character of some script as its counterpart in ASCII, if it has one. -/
def simplify (c : Char) : Char :=
  if c.toNat < 128 then c
  else if Text.isBlank c then ' '
  else
    match Text.digitValue? c with
    | some n => Nat.digitChar n
    | none => c

/-- Leave out the underscores, each of which must stand between two digits. -/
def joinDigits (afterDigit : Bool) : List Char → Option (List Char)
  | [] => some []
  | '_' :: c :: cs =>
    if afterDigit && c.isDigit then (joinDigits true cs).map (c :: ·) else none
  | c :: cs => if c = '_' then none else (joinDigits c.isDigit cs).map (c :: ·)

theorem joinDigits_of_not_mem {cs : List Char} (afterDigit : Bool) (h : '_' ∉ cs) :
    joinDigits afterDigit cs = some cs := by
  induction cs generalizing afterDigit with
  | nil => rfl
  | cons c cs ih =>
    simp only [List.mem_cons, not_or] at h
    have hc : c ≠ '_' := Ne.symm h.1
    simp [joinDigits, hc, ih _ h.2]

def chars? (text : String) : Option (List Char) :=
  let cs := (text.toList.map simplify).dropWhile Numeral.isSpace
  joinDigits false (cs.reverse.dropWhile Numeral.isSpace).reverse

def longestWhole : Nat := 4300

def int? (text : String) : Option Int := do
  let (negative, digits) := Numeral.takeSign (← chars? text)
  if digits.isEmpty || !digits.all Char.isDigit || longestWhole < digits.length then none
  else return Numeral.signedValue negative digits

/-- What a text stands for as a number, which may be the indefinite one. -/
inductive Real where
  | number (x : Binary64)
  | indefinite
  deriving DecidableEq, Repr

def real? (text : String) : Option Real := do
  let cs ← chars? text
  let (negative, unsigned) := Numeral.takeSign cs
  let word := String.ofList (unsigned.map Char.toLower)
  if word = "inf" ∨ word = "infinity" then return .number (.infinite negative)
  else if word = "nan" then return .indefinite
  else return .number (← Numeral.ofChars? cs).nearest

example : int? " -1_000 " = some (-1000) := by decide +kernel

end QueryPlan.Loose
