import QueryPlan.Csv.Spelling
/-!
# Spellings that exclude each other

A whole number is a sign and digits with blanks around them. It reads as a value of every range it
lies in, and nothing else reads as a value. A word for a truth value is no number.
-/
namespace QueryPlan.Csv

private theorem not_isSpace {c : Char} (h : Numeral.isSpace c = true) :
    c ≠ '.' ∧ c ≠ 'e' ∧ c ≠ 'E' := by
  refine ⟨?_, ?_, ?_⟩ <;>
  · rintro rfl
    revert h
    decide

private theorem takeFraction_of_blank {cs : List Char} (h : cs.all Numeral.isSpace = true) :
    Numeral.takeFraction cs = (none, cs) := by
  cases cs with
  | nil => rfl
  | cons c cs =>
    have hc : Numeral.isSpace c = true := (Bool.and_eq_true_iff.1 (List.all_cons ▸ h)).1
    unfold Numeral.takeFraction
    split
    · next heq =>
      cases heq
      exact absurd rfl (not_isSpace hc).1
    · rfl

private theorem takePower_of_blank {cs : List Char} (h : cs.all Numeral.isSpace = true) :
    Numeral.takePower cs = some (none, cs) := by
  cases cs with
  | nil => rfl
  | cons c cs =>
    have hc : Numeral.isSpace c = true := (Bool.and_eq_true_iff.1 (List.all_cons ▸ h)).1
    obtain ⟨-, he, hE⟩ := not_isSpace hc
    simp [Numeral.takePower, he, hE]

private theorem takeFraction_none {cs rest : List Char}
    (h : Numeral.takeFraction cs = (none, rest)) : rest = cs := by
  unfold Numeral.takeFraction at h
  split at h
  · cases h
  · cases h
    rfl

private theorem takePower_none {cs rest : List Char}
    (h : Numeral.takePower cs = some (none, rest)) : rest = cs := by
  unfold Numeral.takePower at h
  split at h
  · cases h
    rfl
  · split at h
    · dsimp only at h
      split at h <;> cases h
    · cases h
      rfl

theorem integer?_eq_some_iff {t : String} {negative : Bool} {cs digits rest : List Char}
    (hs : Numeral.takeSign (t.toList.dropWhile Numeral.isSpace) = (negative, cs))
    (hd : Numeral.takeDigits cs = (digits, rest)) {n : Int} : integer? t = some n ↔
      digits.isEmpty = false ∧ rest.all Numeral.isSpace = true ∧
        n = Numeral.signedValue negative digits := by
  rw [integer?, Option.bind_eq_bind, Option.bind_eq_some_iff]
  simp only [Numeral.ofChars?, hs, hd]
  constructor
  · rintro ⟨num, hnum, h⟩
    split at hnum
    · cases hnum
    · next hne =>
      obtain ⟨⟨power, tail⟩, hp, hnum⟩ := Option.bind_eq_some_iff.1 hnum
      split at hnum
      · next hb =>
        cases hnum
        split at h
        · next hw =>
          cases h
          simp only [Numeral.isWhole, Bool.and_eq_true, Option.isNone_iff_eq_none] at hw
          have hf : Numeral.takeFraction rest = (none, (Numeral.takeFraction rest).2) :=
            Prod.ext hw.1 rfl
          have hr : (Numeral.takeFraction rest).2 = rest := takeFraction_none hf
          rw [hw.1] at hne
          rw [hw.2, hr] at hp
          exact ⟨by simpa using hne, takePower_none hp ▸ hb, rfl⟩
        · cases h
      · cases hnum
  · rintro ⟨hne, hb, rfl⟩
    refine ⟨⟨negative, digits, none, none⟩, ?_, rfl⟩
    simp only [takeFraction_of_blank hb, takePower_of_blank hb, hne]
    exact if_pos hb

private theorem readRanged_eq {t : String} {negative : Bool} {cs digits rest : List Char}
    (hs : Numeral.takeSign (t.toList.dropWhile Numeral.isSpace) = (negative, cs))
    (hd : Numeral.takeDigits cs = (digits, rest)) (least limit : Int) : readRanged least limit t =
      if digits.isEmpty then .other
      else if Numeral.signedValue negative digits < least ∨
        limit ≤ Numeral.signedValue negative digits then .beyond
      else if rest.all Numeral.isSpace then .value (Numeral.signedValue negative digits)
      else .other := by
  simp only [readRanged, hs, hd]

theorem integer?_of_readRanged {least limit : Int} {t : String} {n : Int}
    (h : readRanged least limit t = .value n) : integer? t = some n ∧ least ≤ n ∧ n < limit := by
  rcases hs : Numeral.takeSign (t.toList.dropWhile Numeral.isSpace) with ⟨negative, cs⟩
  rcases hd : Numeral.takeDigits cs with ⟨digits, rest⟩
  rw [readRanged_eq hs hd] at h
  split at h
  · cases h
  · next hne =>
    split at h
    · cases h
    · next hr =>
      split at h
      · next hb =>
        cases h
        exact ⟨(integer?_eq_some_iff hs hd).2 ⟨by simpa using hne, hb, rfl⟩, by omega, by omega⟩
      · cases h

theorem integer?_of_other {least limit : Int} {t : String} (h : readRanged least limit t = .other) :
    integer? t = none := by
  rw [Option.eq_none_iff_forall_ne_some]
  intro n hn
  rcases hs : Numeral.takeSign (t.toList.dropWhile Numeral.isSpace) with ⟨negative, cs⟩
  rcases hd : Numeral.takeDigits cs with ⟨digits, rest⟩
  obtain ⟨hne, hb, -⟩ := (integer?_eq_some_iff hs hd).1 hn
  rw [readRanged_eq hs hd, hne, hb] at h
  simp only [Bool.false_eq_true, if_false, if_true] at h
  split at h <;> cases h

theorem readRanged_of_integer? {t : String} {n : Int} (h : integer? t = some n)
    (least limit : Int) :
    readRanged least limit t = if n < least ∨ limit ≤ n then .beyond else .value n := by
  rcases hs : Numeral.takeSign (t.toList.dropWhile Numeral.isSpace) with ⟨negative, cs⟩
  rcases hd : Numeral.takeDigits cs with ⟨digits, rest⟩
  obtain ⟨hne, hb, rfl⟩ := (integer?_eq_some_iff hs hd).1 h
  rw [readRanged_eq hs hd, hne, hb]
  rfl

private theorem takeSign_fst (cs : List Char) :
    (Numeral.takeSign cs).1 = (cs.head? == some '-') := by
  unfold Numeral.takeSign
  split
  · rfl
  · rfl
  · next hminus _ =>
    cases cs with
    | nil => rfl
    | cons c cs =>
      have hc : c ≠ '-' := fun hc => hminus cs (hc ▸ rfl)
      simp [hc]

theorem sign_of_integer? {t : String} {n : Int} (h : integer? t = some n) :
    if startsNegative t then n ≤ 0 else 0 ≤ n := by
  rcases hs : Numeral.takeSign (t.toList.dropWhile Numeral.isSpace) with ⟨negative, cs⟩
  rcases hd : Numeral.takeDigits cs with ⟨digits, rest⟩
  obtain ⟨-, -, rfl⟩ := (integer?_eq_some_iff hs hd).1 h
  have hsign : startsNegative t = negative := by
    rw [startsNegative, ← takeSign_fst, hs]
  rw [hsign, Numeral.signedValue]
  cases negative with
  | true =>
    simp only [if_true]
    omega
  | false =>
    simp only [Bool.false_eq_true, if_false]
    omega

theorem eq_or_upper_of_toLower {c d : Char} (h : c.toLower = d) :
    c = d ∨ 'A' ≤ c ∧ c ≤ 'Z' := by
  unfold Char.toLower at h
  split at h
  · next hc => exact .inr hc
  · exact .inl h

theorem isLetter_of_toLower {c d : Char} (h : c.toLower = d) (hd : 'a' ≤ d ∧ d ≤ 'z') :
    'A' ≤ c ∧ c ≤ 'z' := by
  cases eq_or_upper_of_toLower h with
  | inl hc =>
    rw [hc]
    exact ⟨Char.le_trans (by decide) hd.1, hd.2⟩
  | inr hc => exact ⟨hc.1, Char.le_trans hc.2 (by decide)⟩

theorem isSpace_of_letter {c : Char} (h : 'A' ≤ c) : Numeral.isSpace c = false := by
  have hr : ¬ c ≤ '\r' := fun hle => absurd (Char.le_trans h hle) (by decide)
  have hb : c ≠ ' ' := by
    intro hc
    subst hc
    exact absurd h (by decide)
  simp [Numeral.isSpace, hr, hb]

theorem not_isDigit_of_letter {c : Char} (h : 'A' ≤ c) : ¬ c.isDigit = true := by
  intro hd
  have hle : c ≤ '9' := of_decide_eq_true (Bool.and_eq_true_iff.1 hd).2
  exact absurd (Char.le_trans h hle) (by decide)

private theorem starts_no_number {c : Char} (h : c.toLower = 't' ∨ c.toLower = 'f') :
    Numeral.isSpace c = false ∧ c.isDigit = false ∧ c ≠ '-' ∧ c ≠ '+' ∧ c ≠ '.' := by
  have hA : 'A' ≤ c := by
    cases h with
    | inl h => exact (isLetter_of_toLower h (by decide)).1
    | inr h => exact (isLetter_of_toLower h (by decide)).1
  refine ⟨isSpace_of_letter hA, Bool.eq_false_iff.2 (not_isDigit_of_letter hA), ?_, ?_, ?_⟩
  all_goals
    intro hc
    subst hc
    exact absurd hA (by decide)

private theorem lower_of_word {t : String} (h : (word? t).isSome) :
    t.toList.map Char.toLower = "true".toList ∨ t.toList.map Char.toLower = "false".toList := by
  unfold word? at h
  split at h
  · next hw => exact .inl (by rw [← hw, String.toList_ofList])
  · next hw => exact .inr (by rw [← hw, String.toList_ofList])
  · cases h

theorem head_of_word {t : String} (h : (word? t).isSome) :
    ∃ c cs, t.toList = c :: cs ∧ (c.toLower = 't' ∨ c.toLower = 'f') := by
  have hl := lower_of_word h
  cases ht : t.toList with
  | nil =>
    rw [ht] at hl
    simp at hl
  | cons c cs =>
    rw [ht, List.map_cons] at hl
    exact ⟨c, cs, rfl, hl.imp (fun hl => (List.cons.inj hl).1) fun hl => (List.cons.inj hl).1⟩

private theorem infinity?_of_word {t : String} (h : (word? t).isSome) : infinity? t = none := by
  unfold infinity?
  rcases lower_of_word h with hw | hw
  · rw [hw]
    decide
  · rw [hw]
    decide

theorem number?_of_word {t : String} (h : (word? t).isSome) :
    number? t = none ∧ ∀ least limit, readRanged least limit t = .other := by
  obtain ⟨c, cs, ht, hc⟩ := head_of_word h
  obtain ⟨hspace, hdigit, hminus, hplus, hpoint⟩ := starts_no_number hc
  have hs : Numeral.takeSign (t.toList.dropWhile Numeral.isSpace) = (false, c :: cs) := by
    rw [ht, List.dropWhile_cons_of_neg (by simp [hspace])]
    unfold Numeral.takeSign
    split
    · next heq => exact absurd (List.cons.inj heq).1 hminus
    · next heq => exact absurd (List.cons.inj heq).1 hplus
    · rfl
  have hd : Numeral.takeDigits (c :: cs) = ([], c :: cs) := by
    simp [Numeral.takeDigits, hdigit]
  have hf : Numeral.takeFraction (c :: cs) = (none, c :: cs) := by
    unfold Numeral.takeFraction
    split
    · next heq => exact absurd (List.cons.inj heq).1 hpoint
    · rfl
  constructor
  · simp [number?, infinity?_of_word h, Numeral.ofChars?, hs, hd, hf]
  · intro least limit
    rw [readRanged_eq hs hd]
    rfl

end QueryPlan.Csv
