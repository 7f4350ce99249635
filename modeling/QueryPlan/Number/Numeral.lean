import QueryPlan.Number.Binary64
/-!
# Decimal numerals

A numeral is an optional sign, digits with an optional point among them and an optional power of
ten, and blanks may surround it. Without a point and a power it stands for a whole number. Its
binary64 value comes in two ways: the nearest one, and the quick one, which takes the first
seventeen digits one by one and then multiplies or divides once by a power of ten, with a rounding
at each step. A numeral beyond the largest number has no quick value.
-/
namespace QueryPlan

structure Numeral where
  negative : Bool
  whole : List Char
  /-- The digits after the point, if there is one. -/
  fraction : Option (List Char)
  /-- Whether the power of ten is negative, and its digits, if there is one. -/
  power : Option (Bool × List Char)
  deriving DecidableEq, Repr

namespace Numeral

def isSpace (c : Char) : Bool :=
  c == ' ' || ('\t' ≤ c && c ≤ '\r')

def takeSign : List Char → Bool × List Char
  | '-' :: cs => (true, cs)
  | '+' :: cs => (false, cs)
  | cs => (false, cs)

def takeDigits (cs : List Char) : List Char × List Char :=
  (cs.takeWhile Char.isDigit, cs.dropWhile Char.isDigit)

def takeFraction : List Char → Option (List Char) × List Char
  | '.' :: cs => (some (takeDigits cs).1, (takeDigits cs).2)
  | cs => (none, cs)

/-- A power of ten, if there is one; its mark must have digits after it. -/
def takePower (cs : List Char) : Option (Option (Bool × List Char) × List Char) :=
  match cs with
  | [] => some (none, [])
  | c :: rest =>
    if c = 'e' ∨ c = 'E' then
      let (negative, rest) := takeSign rest
      let (digits, rest) := takeDigits rest
      if digits.isEmpty then none else some (some (negative, digits), rest)
    else some (none, cs)

def ofChars? (cs : List Char) : Option Numeral := do
  let (negative, cs) := takeSign (cs.dropWhile isSpace)
  let (whole, cs) := takeDigits cs
  let (fraction, cs) := takeFraction cs
  if whole.isEmpty && (fraction.getD []).isEmpty then none
  let (power, cs) ← takePower cs
  if cs.all isSpace then some ⟨negative, whole, fraction, power⟩ else none

def signedValue (negative : Bool) (digits : List Char) : Int :=
  let n : Int := Nat.ofDigitChars 10 digits 0
  if negative then -n else n

def isWhole (n : Numeral) : Bool :=
  n.fraction.isNone && n.power.isNone

def toInt (n : Numeral) : Int :=
  signedValue n.negative n.whole

def digits (n : Numeral) : List Char :=
  n.whole ++ n.fraction.getD []

/-- The power of ten its digits before the point are multiplied with. -/
def exponent (n : Numeral) : Int :=
  match n.power with
  | none => 0
  | some (negative, digits) => signedValue negative digits

def nearest (n : Numeral) : Binary64 :=
  let value := Nat.ofDigitChars 10 n.digits 0
  let power := n.exponent - (n.fraction.getD []).length
  let magnitude :=
    if value = 0 ∨ power + n.digits.length < -330 then Magnitude.ofNat 0
    else if 310 < power then none
    else if 0 ≤ power then Magnitude.round (value * Nat.pow 10 power.toNat) 1
    else Magnitude.round value (Nat.pow 10 (-power).toNat)
  match magnitude with
  | some m => .finite n.negative m
  | none => .infinite n.negative

/-- The digits that count for the quick value; a power of ten may have no more of them. -/
def precision : Nat := 17

def magnitudeOfDigits (digits : List Char) : Option Magnitude := do
  digits.foldlM (fun m c => m.pushDigit (c.toNat - '0'.toNat)) (← Magnitude.ofNat 0)

/-- A magnitude times a power of ten. Below the least power that can be formed the division is done
in two steps. -/
def scale (m : Magnitude) (power : Int) : Option Magnitude :=
  if 308 < power then none
  else if 0 < power then do m.mul (← Magnitude.powerOfTen power.toNat)
  else if power < -616 then Magnitude.ofNat 0
  else if power < -308 then do
    let m ← m.div (← Magnitude.powerOfTen (-power - 308).toNat)
    m.div (← Magnitude.powerOfTen 308)
  else do m.div (← Magnitude.powerOfTen (-power).toNat)

/-- The power of ten that the counted digits are scaled by, kept in thirty-two bits. Digits before
the point that are not counted raise it, those after it are dropped. -/
def quickPower (n : Numeral) : Int :=
  Int.bmod (n.exponent + n.whole.length - (n.digits.take precision).length) (Nat.pow 2 32)

/-- The quick binary64 value of a numeral, unless it lies beyond the largest number. -/
def quick? (n : Numeral) : Option Binary64 := do
  if n.power.any fun p => precision < p.2.length then none
  return .finite n.negative (← scale (← magnitudeOfDigits (n.digits.take precision)) n.quickPower)

/-- The nearest value and the quick one may differ. -/
example : (ofChars? "9223372036854775808".toList).map (·.nearest.toBits) =
    some 0x43e0000000000000 := by decide +kernel

example : ((ofChars? "9223372036854775808".toList).bind quick?).map Binary64.toBits =
    some 0x43e0000000000001 := by decide +kernel

end Numeral
end QueryPlan
