import Mathlib.Algebra.Order.Field.Basic
import Mathlib.Algebra.Order.Field.Power
import Mathlib.Data.Nat.Cast.Order.Field
import Mathlib.Data.Rat.Cast.Order
import Mathlib.Tactic.FieldSimp
import Mathlib.Tactic.Linarith
import Mathlib.Tactic.NormNum
import Mathlib.Tactic.Positivity
import Mathlib.Tactic.Ring
import QueryPlan.Number.Numeral
/-!
# Quick values of whole numbers

The quick value of a numeral is found step by step with a rounding at each, and is lost where a step
leads beyond the largest number. A step at most doubles what it rounds, so a whole number with no more
than a hundred digits keeps far below that and has a quick value.
-/
namespace QueryPlan

namespace Magnitude

def value (m : Magnitude) : ℚ :=
  m.significand * 2 ^ m.exponent

def Within (k : Nat) (result : Option Magnitude) : Prop :=
  ∃ m, result = some m ∧ m.value ≤ 2 ^ k

theorem Within.bind {k l : Nat} {result : Option Magnitude} {f : Magnitude → Option Magnitude}
    (h : Within k result) (hf : ∀ m, m.value ≤ 2 ^ k → Within l (f m)) :
    Within l (result.bind f) := by
  obtain ⟨m, hm, hv⟩ := h
  rw [hm]
  exact hf m hv

section Rounding
variable {num den k : Nat}

theorem inUnits_div (num den : Nat) (q : Int) :
    ((inUnits num den q).1 / (inUnits num den q).2 : ℚ) = num / den / 2 ^ q := by
  unfold inUnits
  split
  · next hq =>
    lift q to Nat using hq
    simp [div_div]
  · next hq =>
    obtain ⟨j, hj⟩ : ∃ j : Nat, q = -j := ⟨(-q).toNat, by omega⟩
    subst hj
    simp [mul_div_right_comm]

theorem divNearest_le (num den : Nat) : (divNearest num den : ℚ) ≤ num / den + 1 := by
  have hfloor : ((num / den : Nat) : ℚ) ≤ num / den := Nat.cast_div_le
  unfold divNearest
  dsimp only
  split
  · push_cast
    linarith
  · linarith

/-- The unit of a number is not greater than the number, unless it is the least unit. -/
theorem unitExponent_le (hnum : num ≠ 0) (hden : 0 < den) (h : (num / den : ℚ) ≤ 2 ^ k) :
    unitExponent num den ≤ max ((k : Int) - 52) (-1074) := by
  have htop : (Nat.log2 num : Int) - Nat.log2 den ≤ k := by
    have hlow : ((2 ^ Nat.log2 num : Nat) : ℚ) ≤ num := by
      exact_mod_cast Nat.log2_self_le hnum
    have hhigh : (den : ℚ) < 2 ^ (Nat.log2 den + 1) := by
      exact_mod_cast Nat.lt_log2_self
    have hpos : (0 : ℚ) < den := by exact_mod_cast hden
    rw [div_le_iff₀ hpos] at h
    have hlt : (2 : ℚ) ^ Nat.log2 num < 2 ^ (k + (Nat.log2 den + 1)) := by
      calc (2 : ℚ) ^ Nat.log2 num ≤ num := by exact_mod_cast hlow
        _ ≤ 2 ^ k * den := h
        _ < 2 ^ k * 2 ^ (Nat.log2 den + 1) := by gcongr
        _ = 2 ^ (k + (Nat.log2 den + 1)) := (pow_add ..).symm
    have hexp := (pow_lt_pow_iff_right₀ (by norm_num : (1 : ℚ) < 2)).1 hlt
    omega
  unfold unitExponent
  dsimp only
  split <;> omega

theorem within_round (hden : 0 < den) (hk : k ≤ 1000) (h : (num / den : ℚ) ≤ 2 ^ k) :
    Within (k + 1) (round num den) := by
  unfold round
  by_cases hnum : num = 0
  · rw [if_pos hnum]
    exact ⟨_, rfl, by simp [value]⟩
  · have hq := unitExponent_le hnum hden h
    have hunits := inUnits_div num den (unitExponent num den)
    rw [if_neg hnum]
    dsimp only
    generalize unitExponent num den = q at hq hunits ⊢
    generalize inUnits num den q = units at hunits ⊢
    have hfits : ¬ (decide (971 < q) || (q == 971 && decide (Nat.pow 2 53 ≤
        divNearest units.1 units.2))) = true := by
      have hlow : ¬ 971 < q ∧ q ≠ 971 := by omega
      simp [hlow.1, hlow.2]
    rw [if_neg hfits]
    refine ⟨_, rfl, ?_⟩
    have hunit : (2 : ℚ) ^ q ≤ 2 ^ k := by
      rw [← zpow_natCast (2 : ℚ) k]
      exact zpow_le_zpow_right₀ (by norm_num) (by omega)
    calc (divNearest units.1 units.2 : ℚ) * 2 ^ q ≤ (units.1 / units.2 + 1) * 2 ^ q := by
          gcongr
          exact divNearest_le ..
      _ = (num / den / 2 ^ q + 1) * 2 ^ q := by rw [hunits]
      _ = num / den + 2 ^ q := by field_simp
      _ ≤ 2 ^ k + 2 ^ k := add_le_add h hunit
      _ = 2 ^ (k + 1) := by ring

theorem within_roundScaled {q : Int} (hden : 0 < den) (hk : k ≤ 1000)
    (h : (num / den * 2 ^ q : ℚ) ≤ 2 ^ k) : Within (k + 1) (roundScaled num den q) := by
  unfold roundScaled
  split
  · next hq =>
    lift q to Nat using hq
    apply within_round hden hk
    rw [zpow_natCast] at h
    simpa [mul_div_right_comm] using h
  · next hq =>
    obtain ⟨j, hj⟩ : ∃ j : Nat, q = -j := ⟨(-q).toNat, by omega⟩
    subst hj
    apply within_round (Nat.mul_pos hden (Nat.pow_pos (by decide))) hk
    rw [zpow_neg, zpow_natCast, ← div_eq_mul_inv] at h
    simpa [div_div] using h

end Rounding

section Steps
variable {a b : Magnitude} {k l : Nat}

theorem value_nonneg (m : Magnitude) : 0 ≤ m.value := by
  unfold value
  positivity

theorem within_mul (hkl : k + l ≤ 1000) (ha : a.value ≤ 2 ^ k) (hb : b.value ≤ 2 ^ l) :
    Within (k + l + 1) (a.mul b) := by
  apply within_roundScaled Nat.one_pos hkl
  have hproduct : ((a.significand * b.significand : Nat) / (1 : Nat) *
      2 ^ (a.exponent + b.exponent) : ℚ) = a.value * b.value := by
    rw [value, value, zpow_add₀ (by norm_num)]
    push_cast
    ring
  rw [hproduct, pow_add]
  exact mul_le_mul ha hb b.value_nonneg (by positivity)

/-- Sixteen times a number has room for ten times it and a digit. -/
theorem within_pushDigit {digit : Nat} (hk : k ≤ 900) (hd : digit ≤ 9) (ha : a.value ≤ 2 ^ k) :
    Within (k + 7) (a.pushDigit digit) := by
  have hshift : Within (k + 5) (roundScaled (a.significand * 10) 1 a.exponent) := by
    apply within_roundScaled Nat.one_pos (by omega)
    have hvalue : ((a.significand * 10 : Nat) / (1 : Nat) * 2 ^ a.exponent : ℚ) = 10 * a.value := by
      rw [value]
      push_cast
      ring
    rw [hvalue, pow_add]
    linarith [a.value_nonneg]
  apply hshift.bind
  intro shifted hs
  have hunits := inUnits_div shifted.significand 1 (-shifted.exponent)
  have hpos : 0 < (inUnits shifted.significand 1 (-shifted.exponent)).2 := by
    unfold inUnits
    split
    · exact Nat.mul_pos Nat.one_pos (Nat.pow_pos (by decide))
    · exact Nat.one_pos
  generalize inUnits shifted.significand 1 (-shifted.exponent) = units at hunits hpos
  apply within_round hpos (by omega)
  have hvalue : (units.1 / units.2 : ℚ) = shifted.value := by
    rw [hunits, value, zpow_neg]
    simp
  have hden : (units.2 : ℚ) ≠ 0 := by exact_mod_cast hpos.ne'
  have hsum : ((units.1 + digit * units.2 : Nat) / units.2 : ℚ) = shifted.value + digit := by
    rw [← hvalue]
    push_cast
    field_simp
  have hdigit : (digit : ℚ) ≤ 9 := by exact_mod_cast hd
  have hone : (1 : ℚ) ≤ 2 ^ k := one_le_pow₀ (by norm_num)
  rw [hsum]
  calc shifted.value + digit ≤ 2 ^ (k + 5) + 9 := add_le_add hs hdigit
    _ ≤ 2 ^ (k + 6) := by
      rw [pow_add, pow_add]
      linarith

theorem within_powerOfTen {n : Nat} (hn : n ≤ 100) : Within (4 * n + 1) (powerOfTen n) := by
  apply within_round Nat.one_pos (by omega)
  have hpow : (10 : ℚ) ^ n ≤ 16 ^ n := pow_le_pow_left₀ (by norm_num) (by norm_num) n
  rw [pow_mul]
  norm_num
  exact hpow

end Steps
end Magnitude

namespace Numeral
open Magnitude

theorem digit_le_nine {c : Char} (h : c.isDigit = true) : c.toNat - '0'.toNat ≤ 9 := by
  have hle : c ≤ '9' := of_decide_eq_true (Bool.and_eq_true_iff.1 h).2
  have hval : c.toNat ≤ '9'.toNat := hle
  have hnine : '9'.toNat = '0'.toNat + 9 := rfl
  omega

/-- Every counted digit takes seven more bits at most. -/
theorem within_digits {k : Nat} {digits : List Char} {a : Magnitude}
    (hk : k + 7 * digits.length ≤ 900) (hd : ∀ c ∈ digits, c.isDigit = true) (ha : a.value ≤ 2 ^ k) :
    Within (k + 7 * digits.length)
      (digits.foldlM (fun m c => m.pushDigit (c.toNat - '0'.toNat)) a) := by
  induction digits generalizing k a with
  | nil => exact ⟨a, rfl, ha⟩
  | cons c digits ih =>
    obtain ⟨hc, hrest⟩ := List.forall_mem_cons.1 hd
    rw [List.length_cons] at hk ⊢
    rw [List.foldlM_cons]
    apply (within_pushDigit (by omega) (digit_le_nine hc) ha).bind
    intro m hm
    have hlen : k + 7 * (digits.length + 1) = k + 7 + 7 * digits.length := by omega
    rw [hlen] at hk ⊢
    exact ih hk hrest hm

theorem isSome_scale {a : Magnitude} {k power : Nat} (hk : k ≤ 500) (hp : power ≤ 100)
    (ha : a.value ≤ 2 ^ k) : (scale a power).isSome := by
  have hsome : ∀ {l : Nat} {result : Option Magnitude}, Within l result → result.isSome := by
    rintro l result ⟨m, hm, _⟩
    rw [hm]
    rfl
  unfold scale
  rw [if_neg (by omega)]
  split
  · exact hsome ((within_powerOfTen hp).bind fun b hb => within_mul (by omega) ha hb)
  · next hzero =>
    have hpower : power = 0 := by omega
    subst hpower
    -- dividing by one
    have hone : powerOfTen 0 = some ⟨4503599627370496, -52⟩ := by decide +kernel
    have hvalue : (a.significand / (4503599627370496 : Nat) * 2 ^ (a.exponent - -52) : ℚ) =
        a.value := by
      rw [value, zpow_sub₀ (by norm_num)]
      norm_num
      ring
    have hdiv : Within (k + 1) (a.div ⟨4503599627370496, -52⟩) := by
      apply within_roundScaled (by decide) (by omega)
      rw [hvalue]
      exact ha
    have hpow : powerOfTen (-(0 : Int)).toNat = some ⟨4503599627370496, -52⟩ := hone
    simp only [Nat.cast_zero] at *
    rw [if_neg (by decide), if_neg (by decide), hpow]
    exact hsome hdiv

theorem isSome_quick? {n : Numeral} (hw : n.isWhole = true) (hd : ∀ c ∈ n.whole, c.isDigit = true)
    (hl : n.whole.length ≤ 100) : n.quick?.isSome := by
  obtain ⟨negative, whole, fraction, power⟩ := n
  obtain ⟨hfraction, hpower⟩ : fraction = none ∧ power = none := by
    simpa [isWhole] using hw
  subst hfraction hpower
  dsimp only at hd hl
  have hdigits : digits ⟨negative, whole, none, none⟩ = whole := List.append_nil _
  have hcount : (whole.take precision).length = min 17 whole.length := List.length_take
  obtain ⟨m, hm, hvalue⟩ : Within (0 + 7 * (whole.take precision).length)
      (magnitudeOfDigits (whole.take precision)) := by
    have hzero : Magnitude.ofNat 0 = some ⟨0, -1074⟩ := rfl
    rw [magnitudeOfDigits, hzero]
    apply within_digits (by omega) (fun c hc => hd c (List.mem_of_mem_take hc))
    simp [value]
  -- the digits that are not counted make the power
  obtain ⟨rest, hrest⟩ : ∃ rest, rest = whole.length - (whole.take precision).length := ⟨_, rfl⟩
  have hquick : quickPower ⟨negative, whole, none, none⟩ = (rest : Int) := by
    have hpow : Nat.pow 2 32 = 4294967296 := rfl
    rw [quickPower, hdigits, hpow, exponent]
    dsimp only
    rw [Int.bmod_eq_of_le] <;> omega
  have hscale : (scale m rest).isSome := isSome_scale (by omega) (by omega) hvalue
  obtain ⟨r, hr⟩ := Option.isSome_iff_exists.1 hscale
  rw [quick?, hquick, hdigits, hm]
  simp only [Option.any_none, Bool.false_eq_true, if_false, Option.bind_eq_bind, Option.bind_some, hr]
  rfl

end Numeral
end QueryPlan
