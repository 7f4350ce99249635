import Mathlib.Data.List.TakeWhile
import QueryPlan.Number.Loose
import QueryPlan.Proofs.Csv.Spelling
import QueryPlan.Proofs.Number.Quick
/-!
# Integers written out in digits

An integer is written out as an optional sign and decimal digits. Such a text is a whole number, also
where numbers may be written loosely, and the written form of an integer stands for it.
-/
namespace QueryPlan

namespace Numeral

theorem isSpace_of_isDigit {c : Char} (h : c.isDigit = true) : isSpace c = false := by
  have hle : '0' ≤ c := of_decide_eq_true (Bool.and_eq_true_iff.1 h).1
  have hr : ¬ c ≤ '\r' := fun hc => absurd (Char.le_trans hle hc) (by decide)
  have hb : c ≠ ' ' := by
    intro hc
    subst hc
    exact absurd hle (by decide)
  simp [isSpace, hr, hb]

theorem toNat_lt_of_isDigit {c : Char} (h : c.isDigit = true) : c.toNat < 128 := by
  have hle : c ≤ '9' := of_decide_eq_true (Bool.and_eq_true_iff.1 h).2
  have hval : c.toNat ≤ '9'.toNat := hle
  exact Nat.lt_of_le_of_lt hval (by decide)

theorem toNat_lt_of_isSpace {c : Char} (h : isSpace c = true) : c.toNat < 128 := by
  simp only [isSpace, Bool.or_eq_true, Bool.and_eq_true, beq_iff_eq, decide_eq_true_eq] at h
  cases h with
  | inl hc => simp [hc]
  | inr hc =>
    have hval : c.toNat ≤ '\r'.toNat := hc.2
    exact Nat.lt_of_le_of_lt hval (by decide)

/-- The sign that is taken off some characters can be put in front of other digits. -/
theorem exists_sign (cs : List Char) : ∃ sign, cs = sign ++ (takeSign cs).2 ∧
    (∀ c ∈ sign, c = '-' ∨ c = '+') ∧
    ∀ c ds, c.isDigit = true → takeSign (sign ++ c :: ds) = ((takeSign cs).1, c :: ds) := by
  unfold takeSign
  split
  · exact ⟨['-'], rfl, by simp, fun _ _ _ => rfl⟩
  · exact ⟨['+'], rfl, by simp, fun _ _ _ => rfl⟩
  · refine ⟨[], rfl, by simp, fun c ds hc => ?_⟩
    split
    · next heq =>
      cases heq
      exact absurd hc (by decide)
    · next heq =>
      cases heq
      exact absurd hc (by decide)
    · rfl

theorem takeDigits_of_all {digits : List Char} (h : ∀ c ∈ digits, c.isDigit = true) :
    takeDigits digits = (digits, []) := by
  have htake : digits.takeWhile Char.isDigit = digits := List.takeWhile_eq_self_iff.2 h
  have hdrop : digits.dropWhile Char.isDigit = [] := List.dropWhile_eq_nil_iff.2 h
  rw [takeDigits, htake, hdrop]

end Numeral

namespace Csv
open Numeral

/-- The integer that is written out in digits, with nothing around them but a sign. -/
def signedDigits? (text : String) : Option Int :=
  let (negative, digits) := takeSign text.toList
  if digits ≠ [] ∧ digits.all Char.isDigit = true then some (signedValue negative digits) else none

theorem signedDigits?_eq_some_iff {t : String} {n : Int} : signedDigits? t = some n ↔
    ∃ negative digits, takeSign t.toList = (negative, digits) ∧ digits ≠ [] ∧
      (∀ c ∈ digits, c.isDigit = true) ∧ n = signedValue negative digits := by
  rw [signedDigits?]
  constructor
  · intro h
    obtain ⟨hd, hn⟩ := Option.ite_none_right_eq_some.1 h
    exact ⟨_, _, rfl, hd.1, List.all_eq_true.1 hd.2, (Option.some.inj hn).symm⟩
  · rintro ⟨negative, digits, hs, hne, hd, hn⟩
    rw [hs, hn]
    exact if_pos ⟨hne, List.all_eq_true.2 hd⟩

private theorem toDigits_digits (m : Nat) :
    Nat.toDigits 10 m ≠ [] ∧ ∀ c ∈ Nat.toDigits 10 m, c.isDigit = true := by
  constructor
  · exact List.length_pos_iff.1 Nat.length_toDigits_pos
  · intro c hc
    exact Nat.isDigit_of_mem_toDigits (by decide) (by decide) hc

private theorem takeSign_of_digits {digits : List Char} (h : ∀ c ∈ digits, c.isDigit = true) :
    takeSign digits = (false, digits) := by
  unfold takeSign
  split
  · exact absurd (h '-' List.mem_cons_self) (by decide)
  · exact absurd (h '+' List.mem_cons_self) (by decide)
  · rfl

theorem takeSign_toString (n : Int) :
    takeSign (toString n).toList = (decide (n < 0), Nat.toDigits 10 n.natAbs) := by
  cases n with
  | ofNat m =>
    have hl : (toString (Int.ofNat m)).toList = Nat.toDigits 10 m := Nat.toList_repr
    have hnot : ¬ Int.ofNat m < 0 := Int.not_lt.2 (Int.natCast_nonneg m)
    rw [hl, takeSign_of_digits (toDigits_digits m).2, decide_eq_false hnot]
    rfl
  | negSucc m =>
    have hl : (toString (Int.negSucc m)).toList = '-' :: Nat.toDigits 10 (m + 1) := by
      show ("-" ++ (m + 1).repr).toList = _
      rw [String.toList_append, Nat.toList_repr]
      rfl
    rw [hl, decide_eq_true (Int.negSucc_lt_zero m)]
    rfl

theorem signedValue_toDigits (n : Int) :
    signedValue (decide (n < 0)) (Nat.toDigits 10 n.natAbs) = n := by
  rw [signedValue, Nat.ofDigitChars_ten_toDigits]
  by_cases h : n < 0
  · simp only [h, decide_true, if_true]
    omega
  · simp only [h, decide_false, Bool.false_eq_true, if_false]
    omega

theorem signedDigits?_toString (n : Int) : signedDigits? (toString n) = some n :=
  have ⟨hne, hd⟩ := toDigits_digits n.natAbs
  signedDigits?_eq_some_iff.2
    ⟨_, _, takeSign_toString n, hne, hd, (signedValue_toDigits n).symm⟩

private theorem dropWhile_of_takeSign {cs digits : List Char} {negative : Bool}
    (hs : takeSign cs = (negative, digits)) (hd : ∀ c ∈ digits, c.isDigit = true) :
    cs.dropWhile isSpace = cs := by
  obtain ⟨sign, hcs, hsign, _⟩ := exists_sign cs
  rw [hs] at hcs
  apply List.dropWhile_eq_self_iff.2
  intro hl
  have hmem : cs[0] ∈ sign ++ digits := hcs ▸ List.getElem_mem hl
  cases List.mem_append.1 hmem with
  | inl h =>
    cases hsign _ h with
    | inl hc => simp [hc, isSpace]
    | inr hc => simp [hc, isSpace]
  | inr h => simp [isSpace_of_isDigit (hd _ h)]

theorem integer?_of_signedDigits? {t : String} {n : Int} (h : signedDigits? t = some n) :
    integer? t = some n := by
  obtain ⟨negative, digits, hs, hne, hd, hn⟩ := signedDigits?_eq_some_iff.1 h
  have hs' : takeSign (t.toList.dropWhile isSpace) = (negative, digits) := by
    rw [dropWhile_of_takeSign hs hd, hs]
  exact (integer?_eq_some_iff hs' (takeDigits_of_all hd)).2 ⟨by simpa using hne, rfl, hn⟩

theorem integer?_toString (n : Int) : integer? (toString n) = some n :=
  integer?_of_signedDigits? (signedDigits?_toString n)

theorem mem_toString {n : Int} {c : Char} (h : c ∈ (toString n).toList) :
    c = '-' ∨ c = '+' ∨ c.isDigit = true := by
  obtain ⟨sign, hl, hsign, _⟩ := exists_sign (toString n).toList
  rw [takeSign_toString] at hl
  rw [hl] at h
  cases List.mem_append.1 h with
  | inl h => exact (hsign c h).imp_right .inl
  | inr h => exact .inr (.inr ((toDigits_digits n.natAbs).2 c h))

theorem ofChars?_toString (n : Int) : ofChars? (toString n).toList =
    some ⟨decide (n < 0), Nat.toDigits 10 n.natAbs, none, none⟩ := by
  obtain ⟨hne, hd⟩ := toDigits_digits n.natAbs
  have hs := takeSign_toString n
  have hempty : (Nat.toDigits 10 n.natAbs).isEmpty = false := List.isEmpty_eq_false_iff.2 hne
  rw [ofChars?, dropWhile_of_takeSign hs hd, hs]
  dsimp only
  rw [takeDigits_of_all hd]
  dsimp only [takeFraction]
  rw [hempty]
  rfl

theorem number?_toString {n : Int} (h : n.natAbs < 10 ^ 100) : (number? (toString n)).isSome := by
  have hlength : (Nat.toDigits 10 n.natAbs).length ≤ 100 :=
    (Nat.length_toDigits_le_iff (by decide) (by decide)).2 h
  have hquick := isSome_quick? (n := ⟨decide (n < 0), Nat.toDigits 10 n.natAbs, none, none⟩) rfl
    (toDigits_digits n.natAbs).2 hlength
  rw [number?, ofChars?_toString]
  simp [hquick]

/-- How a whole number is written: a sign and digits, with blanks on both sides. -/
structure Written (t : String) (n : Int) (before sign digits after : List Char) : Prop where
  toList_eq : t.toList = before ++ (sign ++ digits ++ after)
  before_blank : ∀ c ∈ before, isSpace c = true
  sign_mem : ∀ c ∈ sign, c = '-' ∨ c = '+'
  digits_ne_nil : digits ≠ []
  isDigit : ∀ c ∈ digits, c.isDigit = true
  after_blank : ∀ c ∈ after, isSpace c = true
  digits_eq : (takeSign (sign ++ digits)).2 = digits
  value_eq : n = signedValue (takeSign (sign ++ digits)).1 digits

theorem exists_written {t : String} {n : Int} (h : integer? t = some n) :
    ∃ before sign digits after, Written t n before sign digits after := by
  rcases hs : takeSign (t.toList.dropWhile isSpace) with ⟨negative, cs⟩
  rcases hd : takeDigits cs with ⟨digits, after⟩
  obtain ⟨hne, hafter, hval⟩ := (integer?_eq_some_iff hs hd).1 h
  obtain ⟨sign, hu, hsign, hput⟩ := exists_sign (t.toList.dropWhile isSpace)
  rw [hs] at hu hput
  rw [takeDigits, Prod.mk.injEq] at hd
  have hcs : cs = digits ++ after := by
    rw [← hd.1, ← hd.2, List.takeWhile_append_dropWhile]
  have hdigits : ∀ c ∈ digits, c.isDigit = true := by
    intro c hc
    rw [← hd.1] at hc
    exact List.mem_takeWhile_imp hc
  have hnil : digits ≠ [] := by simpa using hne
  have htake : takeSign (sign ++ digits) = (negative, digits) := by
    obtain ⟨c, ds, hcons⟩ := List.exists_cons_of_ne_nil hnil
    rw [hcons]
    exact hput c ds (hdigits c (by simp [hcons]))
  refine ⟨t.toList.takeWhile isSpace, sign, digits, after, ?_⟩
  exact {
    toList_eq := by rw [List.append_assoc, ← hcs, ← hu, List.takeWhile_append_dropWhile]
    before_blank := fun c hc => List.mem_takeWhile_imp hc
    sign_mem := hsign
    digits_ne_nil := hnil
    isDigit := hdigits
    after_blank := by simpa using hafter
    digits_eq := by rw [htake]
    value_eq := by rw [htake, hval] }

namespace Written
variable {t : String} {n : Int} {before sign digits after : List Char}

theorem ascii (w : Written t n before sign digits after) : ∀ c ∈ t.toList, c.toNat < 128 := by
  intro c hc
  rw [w.toList_eq] at hc
  simp only [List.mem_append] at hc
  rcases hc with hc | (hc | hc) | hc
  · exact toNat_lt_of_isSpace (w.before_blank c hc)
  · cases w.sign_mem c hc with
    | inl h => simp [h]
    | inr h => simp [h]
  · exact toNat_lt_of_isDigit (w.isDigit c hc)
  · exact toNat_lt_of_isSpace (w.after_blank c hc)

theorem body_mem (w : Written t n before sign digits after) :
    ∀ c ∈ sign ++ digits, isSpace c = false ∧ c ≠ '_' := by
  intro c hc
  cases List.mem_append.1 hc with
  | inl h =>
    cases w.sign_mem c h with
    | inl h => simp [h, isSpace]
    | inr h => simp [h, isSpace]
  | inr h =>
    have hd := w.isDigit c h
    refine ⟨isSpace_of_isDigit hd, ?_⟩
    intro hc
    simp [hc] at hd

theorem chars? (w : Written t n before sign digits after) :
    Loose.chars? t = some (sign ++ digits) := by
  have hsimple : t.toList.map Loose.simplify = t.toList := by
    have hid : ∀ c ∈ t.toList, Loose.simplify c = id c := by
      intro c hc
      simp [Loose.simplify, w.ascii c hc]
    rw [List.map_congr_left hid, List.map_id]
  -- none of the blanks around it is left
  have htrim : ∀ blanks body : List Char, (∀ c ∈ blanks, isSpace c = true) →
      (∀ c ∈ body.head?, isSpace c = false) → (blanks ++ body).dropWhile isSpace = body := by
    intro blanks body hblanks hbody
    rw [List.dropWhile_append_of_pos hblanks]
    cases body with
    | nil => rfl
    | cons c cs => rw [List.dropWhile_cons_of_neg (by simp [hbody c rfl])]
  have hfront : (t.toList.map Loose.simplify).dropWhile isSpace = sign ++ digits ++ after := by
    rw [hsimple, w.toList_eq]
    apply htrim _ _ w.before_blank
    intro c hc
    obtain ⟨first, rest, hcons⟩ := List.exists_cons_of_ne_nil (l := sign ++ digits) (by
      simp [w.digits_ne_nil])
    have hm : first ∈ sign ++ digits := by simp [hcons]
    rw [hcons] at hc
    cases hc
    exact (w.body_mem _ hm).1
  have hback : ((sign ++ digits ++ after).reverse.dropWhile isSpace).reverse = sign ++ digits := by
    rw [List.reverse_append, htrim]
    · exact List.reverse_reverse _
    · simpa using w.after_blank
    · intro c hc
      have hm : c ∈ sign ++ digits := List.mem_reverse.1 (List.mem_of_mem_head? hc)
      exact (w.body_mem c hm).1
  rw [Loose.chars?, hfront, hback]
  apply Loose.joinDigits_of_not_mem
  intro hm
  exact (w.body_mem _ hm).2 rfl

end Written

theorem looseInt?_of_integer? {t : String} {n m : Int} (hn : integer? t = some n)
    (hm : Loose.int? t = some m) : m = n := by
  obtain ⟨before, sign, digits, after, w⟩ := exists_written hn
  rw [Loose.int?, w.chars?] at hm
  simp only [Option.bind_eq_bind, Option.bind_some] at hm
  split at hm
  · cases hm
  · cases hm
    rw [w.digits_eq]
    exact w.value_eq.symm

end Csv
end QueryPlan
