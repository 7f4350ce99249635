/-!
# Binary64 numbers

The sixty-four bit floating-point numbers, computed exactly: a finite magnitude is `m * 2 ^ q`, and
every operation forms its exact rational result and rounds it to the nearest magnitude, a tie to the
even one. Words are only the written form of the results.
-/
namespace QueryPlan

/-- The finite non-negative number `significand * 2 ^ exponent`. -/
structure Magnitude where
  significand : Nat
  exponent : Int
  deriving DecidableEq, Repr

namespace Magnitude

/-- The nearest whole number to `num / den`, a tie going to the even one. -/
def divNearest (num den : Nat) : Nat :=
  let q := num / den
  let r := num % den
  if den < 2 * r || (2 * r == den && q % 2 == 1) then q + 1 else q

/-- `num / den` in units of `2 ^ q`, as a fraction of whole numbers. -/
def inUnits (num den : Nat) (q : Int) : Nat × Nat :=
  if 0 ≤ q then (num, den * Nat.pow 2 q.toNat) else (num * Nat.pow 2 (-q).toNat, den)

/-- The exponent of the unit in which `num / den` has fifty-three bits, but never below that of the
least positive magnitude. -/
def unitExponent (num den : Nat) : Int :=
  let top : Int := Nat.log2 num - Nat.log2 den
  let (n, d) := inUnits num den top
  let floor := if d ≤ n then top else top - 1
  max (floor - 52) (-1074)

/-- The magnitude nearest to `num / den`, unless that lies beyond the largest one. -/
def round (num den : Nat) : Option Magnitude :=
  if num = 0 then some ⟨0, -1074⟩
  else
    let q := unitExponent num den
    let (n, d) := inUnits num den q
    let m := divNearest n d
    if 971 < q || (q == 971 && Nat.pow 2 53 ≤ m) then none else some ⟨m, q⟩

def roundScaled (num den : Nat) (q : Int) : Option Magnitude :=
  if 0 ≤ q then round (num * Nat.pow 2 q.toNat) den else round num (den * Nat.pow 2 (-q).toNat)

def ofNat (n : Nat) : Option Magnitude :=
  round n 1

def mul (a b : Magnitude) : Option Magnitude :=
  roundScaled (a.significand * b.significand) 1 (a.exponent + b.exponent)

def div (a b : Magnitude) : Option Magnitude :=
  roundScaled a.significand b.significand (a.exponent - b.exponent)

def powerOfTen (n : Nat) : Option Magnitude :=
  ofNat (Nat.pow 10 n)

/-- One more decimal digit at the right end, with a rounding after each of the two steps. -/
def pushDigit (a : Magnitude) (digit : Nat) : Option Magnitude := do
  let shifted ← roundScaled (a.significand * 10) 1 a.exponent
  let (n, d) := inUnits shifted.significand 1 (-shifted.exponent)
  round (n + digit * d) d

def toNat? (a : Magnitude) : Option Nat :=
  if 0 ≤ a.exponent then some (a.significand * Nat.pow 2 a.exponent.toNat)
  else
    let unit := Nat.pow 2 (-a.exponent).toNat
    if a.significand % unit = 0 then some (a.significand / unit) else none

/-- The whole number next to it toward zero. -/
def truncate (a : Magnitude) : Nat :=
  if 0 ≤ a.exponent then a.significand * Nat.pow 2 a.exponent.toNat
  else a.significand / Nat.pow 2 (-a.exponent).toNat

/-- Sixty-three bits: the exponent field counts units from the least one, and a significand of
fifty-three bits carries its leading bit into it. -/
def toWord (a : Magnitude) : Nat :=
  (a.exponent + 1074).toNat * Nat.pow 2 52 + a.significand

end Magnitude

/-- A binary64 number that is not an indefinite one. -/
inductive Binary64 where
  | finite (negative : Bool) (magnitude : Magnitude)
  | infinite (negative : Bool)
  deriving DecidableEq, Repr

namespace Binary64

def ofInt (n : Int) : Binary64 :=
  match Magnitude.ofNat n.natAbs with
  | some m => .finite (n < 0) m
  | none => .infinite (n < 0)

def toInt? : Binary64 → Option Int
  | .finite negative m => m.toNat?.map fun n => if negative then -(n : Int) else n
  | .infinite _ => none

def truncate? : Binary64 → Option Int
  | .finite negative m => some (if negative then -(m.truncate : Int) else m.truncate)
  | .infinite _ => none

/-- Its place in the order of the numbers. -/
def rank : Binary64 → Int
  | .finite negative m => if negative then -(m.toWord : Int) else m.toWord
  | .infinite negative => if negative then -(2047 * Int.pow 2 52) else 2047 * Int.pow 2 52

def greatest? (xs : List Binary64) : Option Binary64 :=
  xs.foldl (fun best x =>
    match best with
    | none => some x
    | some b => if b.rank < x.rank then some x else some b) none

def toBits : Binary64 → Nat
  | .finite negative m => (if negative then Nat.pow 2 63 else 0) + m.toWord
  | .infinite negative => (if negative then Nat.pow 2 63 else 0) + 2047 * Nat.pow 2 52

example : (ofInt 1).toBits = 0x3ff0000000000000 := by decide

/-- The first whole number that is none of them goes to its even neighbour. -/
example : (ofInt 9007199254740993).toInt? = some 9007199254740992 := by decide

end Binary64
end QueryPlan
