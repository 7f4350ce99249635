import QueryPlan.Proofs.Csv.Conversion
/-!
# Numbers that clash

A whole number beyond the signed range clashes with a missing cell and with a negative whole number.
Texts are told to be without a clash exactly when all are numbers, the whole ones among them lie in
one of the two ranges, and no two of them clash.
-/
namespace QueryPlan.Csv
variable {texts : Texts}

def Texts.AnyWhole (cells : Texts) (p : Int → Prop) : Prop :=
  ∃ t ∈ cells.present, ∃ n, integer? t = some n ∧ p n

instance (texts : Texts) (p : Int → Prop) [DecidablePred p] : Decidable (texts.AnyWhole p) :=
  inferInstanceAs (Decidable (∃ t ∈ texts.present, ∃ n ∈ integer? t, p n))

@[simp] theorem present_none : Texts.present (none :: texts) = texts.present := rfl

@[simp] theorem present_some (t : String) :
    Texts.present (some t :: texts) = t :: texts.present := rfl

theorem anyWhole_none {p : Int → Prop} : Texts.AnyWhole (none :: texts) p ↔ texts.AnyWhole p :=
  Iff.rfl

theorem anyWhole_some {t : String} {p : Int → Prop} : Texts.AnyWhole (some t :: texts) p ↔
    (∃ n, integer? t = some n ∧ p n) ∨ texts.AnyWhole p := by
  simp [Texts.AnyWhole]

/-- Texts are told to be without a clash when all are numbers, the whole ones among them lie in a
range, and none beyond the signed range meets a missing cell or a negative one. -/
theorem clashes_eq_false_iff {gap big : Bool} : clashes gap big texts = some false ↔
    (∀ t ∈ texts.present, (number? t).isSome) ∧
      ¬ texts.AnyWhole (fun n => n < -signedLimit ∨ unsignedLimit ≤ n) ∧
      ¬ ((gap = true ∨ none ∈ texts ∨ texts.AnyWhole (· < 0)) ∧
        (big = true ∨ texts.AnyWhole (signedLimit ≤ ·))) := by
  -- what has been seen travels down the list, so both flags are general
  induction texts generalizing gap big with
  | nil => simp [clashes, Texts.AnyWhole, Texts.present]
  | cons c texts ih =>
    unfold clashes
    by_cases hclash : (gap && big) = true
    · rw [if_pos hclash]
      rw [Bool.and_eq_true] at hclash
      simp [hclash]
    · rw [if_neg hclash]
      cases c with
      | none => simp [ih, anyWhole_none]
      | some t =>
        cases hx : number? t with
        | none => simp [hx]
        | some x =>
          cases hn : integer? t with
          | none => simp [ih, anyWhole_some, hx, hn]
          | some n =>
            by_cases hout : n < -signedLimit ∨ unsignedLimit ≤ n
            · simp [anyWhole_some, hx, hn, hout]
            · simp [ih, anyWhole_some, hx, hn, hout, or_assoc, or_left_comm]

theorem exists_of_clashes {gap big : Bool} (h : clashes gap big texts = none) :
    ∃ t ∈ texts.present, number? t = none ∨
      ∃ n, integer? t = some n ∧ (n < -signedLimit ∨ unsignedLimit ≤ n) := by
  induction texts generalizing gap big with
  | nil => simp [clashes] at h
  | cons c texts ih =>
    unfold clashes at h
    split at h
    · cases h
    · cases c with
      | none => exact ih h
      | some t =>
        rw [present_some]
        cases hx : number? t with
        | none => exact ⟨t, List.mem_cons_self, .inl hx⟩
        | some x =>
          simp only [hx, Option.bind_eq_bind, Option.bind_some] at h
          have hrest : ∀ gap big, clashes gap big texts = none →
              ∃ u ∈ t :: Texts.present texts, number? u = none ∨
                ∃ n, integer? u = some n ∧ (n < -signedLimit ∨ unsignedLimit ≤ n) := by
            intro gap big hc
            obtain ⟨u, hu, hout⟩ := ih hc
            exact ⟨u, List.mem_cons_of_mem _ hu, hout⟩
          split at h
          · exact hrest _ _ h
          · next n hn =>
            split at h
            · next hout => exact ⟨t, List.mem_cons_self, .inr ⟨n, hn, hout⟩⟩
            · exact hrest _ _ h

theorem anyWhole_of_clashes {gap : Bool} (h : clashes gap false texts = some true) :
    texts.AnyWhole (signedLimit ≤ ·) := by
  induction texts generalizing gap with
  | nil => simp [clashes] at h
  | cons c texts ih =>
    unfold clashes at h
    rw [Bool.and_false, if_neg Bool.false_ne_true] at h
    cases c with
    | none => exact ih h
    | some t =>
      obtain ⟨x, _, h⟩ := Option.bind_eq_some_iff.1 h
      rw [anyWhole_some]
      cases hn : integer? t with
      | none =>
        rw [hn] at h
        exact .inr (ih h)
      | some n =>
        rw [hn] at h
        dsimp only at h
        by_cases hbig : signedLimit ≤ n
        · exact .inl ⟨n, rfl, hbig⟩
        · split at h
          · cases h
          · simp only [hbig, decide_false, Bool.or_false] at h
            exact .inr (ih h)

theorem clashes_of_readNumbers (h : readNumbers texts = none) : clashes false false texts = none := by
  unfold readNumbers at h
  cases hc : clashes false false texts with
  | none => rfl
  | some clash =>
    simp only [hc, Option.bind_eq_bind, Option.bind_some] at h
    split at h
    · cases h
    · split at h <;> cases h

theorem clashes_of_clash (h : readNumbers texts = some .clash) :
    clashes false false texts = some true := by
  unfold readNumbers at h
  obtain ⟨clash, hclash, h⟩ := Option.bind_eq_some_iff.1 h
  split at h
  · next hc => rw [hclash, hc]
  · split at h <;> cases h

end QueryPlan.Csv
