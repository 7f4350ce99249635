import QueryPlan.Text.Printable
/-!
# Quoted texts

A text is shown between single quotes, or between double quotes when it holds a single quote and no
double one. The chosen quote and the backslash are escaped, and so is every character that does not
print. Lists, tuples and sets of shown items have one form each.
-/
namespace QueryPlan.Text

/-- The last `width` hexadecimal digits of `n`, most significant first. -/
def hexDigits : Nat → Nat → List Char
  | 0, _ => []
  | width + 1, n => hexDigits width (n / 16) ++ [Nat.digitChar (n % 16)]

def quoteMark (cs : List Char) : Char :=
  if cs.contains '\'' && !cs.contains '"' then '"' else '\''

def escape (mark c : Char) : List Char :=
  if c = mark ∨ c = '\\' then ['\\', c]
  else if c = '\t' then ['\\', 't']
  else if c = '\n' then ['\\', 'n']
  else if c = '\r' then ['\\', 'r']
  else if isPrintable c then [c]
  else if c.toNat < 0x100 then '\\' :: 'x' :: hexDigits 2 c.toNat
  else if c.toNat < 0x10000 then '\\' :: 'u' :: hexDigits 4 c.toNat
  else '\\' :: 'U' :: hexDigits 8 c.toNat

def quotedChars (cs : List Char) : List Char :=
  quoteMark cs :: cs.flatMap (escape (quoteMark cs)) ++ [quoteMark cs]

def quoted (s : String) : String :=
  String.ofList (quotedChars s.toList)

def commaSeparated (items : List String) : String :=
  ", ".intercalate items

def quotedList (items : List String) : String :=
  "[" ++ commaSeparated (items.map quoted) ++ "]"

def quotedSet (items : List String) : String :=
  "\x7b" ++ commaSeparated (items.map quoted) ++ "\x7d"

/-- Shown items in parentheses; a single item keeps its comma. -/
def tuple : List String → String
  | [item] => "(" ++ item ++ ",)"
  | items => "(" ++ commaSeparated items ++ ")"

def truth (b : Bool) : String :=
  if b then "True" else "False"

@[simp] theorem toList_quoted (s : String) : (quoted s).toList = quotedChars s.toList := by
  simp [quoted]

theorem toList_commaSeparated_cons (item : String) (items : List String) :
    (commaSeparated (item :: items)).toList =
      item.toList ++ items.flatMap fun t => [',', ' '] ++ t.toList := by
  induction items generalizing item with
  | nil => simp [commaSeparated]
  | cons next items ih =>
    rw [commaSeparated, String.intercalate_cons_cons, ← commaSeparated, String.toList_append,
      String.toList_append, ih, List.flatMap_cons, List.append_assoc, List.append_assoc]
    rfl

theorem length_hexDigits (width n : Nat) : (hexDigits width n).length = width := by
  induction width generalizing n with
  | zero => rfl
  | succ width ih => simp [hexDigits, ih]

end QueryPlan.Text
