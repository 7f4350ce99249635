import QueryPlan.Proofs.Csv.Digits
import QueryPlan.Proofs.Csv.Form
import QueryPlan.Proofs.Csv.Overflow
/-!
# Columns of integers

The texts of a column of integers become integers in one of four ways. Whole numbers are taken modulo
two to the sixty-fourth, or they stay as they are in an unsigned layout; among other numbers each is
its binary64 value without the fraction; and where some text is no number, what is a whole number
keeps its value. A column is faithful when it has the declared layout and integers written out in
digits keep their values, and from the four ways it is told which columns are.
-/
namespace QueryPlan.Csv

def IsInteger (value : String → Int → Prop) : Option String → Cell → Prop
  | none, c => c = .missing
  | some t, c => ∃ n, c = .integer n ∧ value t n

def ReadAs (value : String → Int → Prop) (texts : Texts) (cells : List Cell) : Prop :=
  List.Forall₂ (IsInteger value) texts cells

def wrappedValue (t : String) (n : Int) : Prop :=
  ∃ m, integer? t = some m ∧ n = m.bmod (Nat.pow 2 64)

def truncatedValue (t : String) (n : Int) : Prop :=
  (number? t).bind truncateSigned? = some n

/-- An integer of the signed range, that of a whole number if the text is one. -/
def looseValue (t : String) (n : Int) : Prop :=
  inSigned n = true ∧ ∀ m, integer? t = some m → n = m

inductive IntegersRead (g : Grammar) (nullable : Bool) (texts : Texts) : Stored → Prop where
  | whole {cells : List Cell} (hall : ∀ t ∈ texts.present, (integer? t).isSome)
    (hrange : g = .lenient → nullable = false → ¬ texts.AnyWhole (signedLimit ≤ ·))
    (h : ReadAs wrappedValue texts cells) :
    IntegersRead g nullable texts (DataType.int64.storage nullable, cells)
  | unsigned {cells : List Cell} (hg : g = .lenient) (hn : nullable = false)
    (hall : ∀ t ∈ texts.present, (integer? t).isSome) (hany : texts.AnyWhole (signedLimit ≤ ·))
    (h : ReadAs (fun t n => integer? t = some n) texts cells) :
    IntegersRead g nullable texts (.uint64, cells)
  | real {cells : List Cell} (hall : ∀ t ∈ texts.present, (number? t).isSome)
    (hany : ∃ t ∈ texts.present, integer? t = none) (h : ReadAs truncatedValue texts cells) :
    IntegersRead g nullable texts (DataType.int64.storage nullable, cells)
  | other {cells : List Cell} (hany : ∃ t ∈ texts.present, number? t = none)
    (h : ReadAs looseValue texts cells) :
    IntegersRead g nullable texts (DataType.int64.storage nullable, cells)

theorem inSigned_iff {n : Int} : inSigned n = true ↔ -signedLimit ≤ n ∧ n < signedLimit := by
  simp [inSigned]

theorem inSigned_bmod (n : Int) : inSigned (n.bmod (Nat.pow 2 64)) = true := by
  have hpow : Nat.pow 2 64 = 18446744073709551616 := rfl
  have hlow := Int.le_bmod (x := n) (m := Nat.pow 2 64) (by decide)
  have hhigh := Int.bmod_lt (x := n) (m := Nat.pow 2 64) (by decide)
  rw [inSigned_iff]
  rw [hpow] at *
  simp only [signedLimit]
  omega

theorem bmod_of_inSigned {n : Int} (h : inSigned n = true) : n.bmod (Nat.pow 2 64) = n := by
  have hpow : Nat.pow 2 64 = 18446744073709551616 := rfl
  rw [inSigned_iff] at h
  simp only [signedLimit] at h
  rw [hpow]
  apply Int.bmod_eq_of_le <;> omega

section Ways
variable {texts : Texts} {cells : List Cell} {value : String → Int → Prop} {stored : Stored}

theorem readAs_of_convert {f : String → Option Cell} (h : convert f texts = some cells)
    (hf : ∀ t ∈ texts.present, ∀ c, f t = some c → ∃ n, c = .integer n ∧ value t n) :
    ReadAs value texts cells := by
  have hc := (List.forall₂_and_left texts cells).2 ⟨fun t ht => ht, convert_eq_some_iff.1 h⟩
  apply hc.imp
  rintro text c ⟨hm, hcell⟩
  cases text with
  | none => exact (Option.some.inj hcell).symm
  | some t => exact hf t (mem_present.2 hm) c hcell

theorem readAs_of_complete {ns : List Int} (hc : texts.complete = true)
    (h : List.Forall₂ value texts.present ns) : ReadAs value texts (ns.map .integer) := by
  rw [eq_map_some_of_complete hc, ReadAs, List.forall₂_map_left_iff, List.forall₂_map_right_iff]
  exact h.imp fun t n hv => ⟨n, rfl, hv⟩

theorem readNumbers_cases {numbers : Numbers} (h : readNumbers texts = some numbers) :
    match numbers with
    | .whole ns => ns = texts.map (·.bind integer?) ∧ ∀ t ∈ texts.present, (integer? t).isSome
    | .real xs => xs = texts.map (·.bind number?) ∧ (∀ t ∈ texts.present, (number? t).isSome) ∧
        ∃ t ∈ texts.present, integer? t = none
    | .clash => True := by
  unfold readNumbers at h
  obtain ⟨clash, hclash, h⟩ := Option.bind_eq_some_iff.1 h
  split at h
  · cases h
    trivial
  · next hc =>
    split at h
    · next hall =>
      cases h
      exact ⟨rfl, by simpa using hall⟩
    · next hall =>
      cases h
      rw [Bool.not_eq_true] at hc
      subst hc
      exact ⟨rfl, (clashes_eq_false_iff.1 hclash).1, by simpa using hall⟩

theorem truncate_of_toNat? {m : Magnitude} {k : Nat} (h : m.toNat? = some k) : m.truncate = k := by
  unfold Magnitude.toNat? at h
  unfold Magnitude.truncate
  split at h
  · next hpos =>
    rw [if_pos hpos]
    exact Option.some.inj h
  · next hneg =>
    rw [if_neg hneg]
    dsimp only at h
    split at h
    · exact Option.some.inj h
    · cases h

theorem truncateSigned?_of_wholeSigned? {x : Binary64} {n : Int} (h : wholeSigned? x = some n) :
    truncateSigned? x = some n ∧ inSigned n = true := by
  obtain ⟨k, hk, h⟩ := Option.bind_eq_some_iff.1 h
  split at h
  · next hr =>
    cases h
    refine ⟨?_, hr⟩
    cases x with
    | infinite negative => cases hk
    | finite negative m =>
      obtain ⟨a, ha, hn⟩ := Option.map_eq_some_iff.1 hk
      obtain ⟨j, hj, hja⟩ := Option.bind_eq_some_iff.1 ha
      cases hja
      have ht : (Binary64.finite negative m).truncate? = some n := by
        rw [Binary64.truncate?, truncate_of_toNat? hj, hn]
      simp [truncateSigned?, ht, hr]
  · cases h

theorem inSigned_of_truncateSigned? {x : Binary64} {n : Int} (h : truncateSigned? x = some n) :
    inSigned n = true := by
  obtain ⟨k, _, h⟩ := Option.bind_eq_some_iff.1 h
  cases h
  split
  · next hr => exact hr
  · decide

end Ways

section Columns
variable {texts : Texts} {cells : List Cell} {stored : Stored}

private theorem integer?_of_ranged {least limit : Int} {ns : List Int}
    (h : rangedValues least limit texts.present = .ok ns) :
    List.Forall₂ (fun t n => integer? t = some n ∧ least ≤ n ∧ n < limit) texts.present ns :=
  (rangedValues_eq_ok_iff.1 h).imp fun _ _ => integer?_of_readRanged

private theorem isSome_of_ranged {least limit : Int} {ns : List Int}
    (h : rangedValues least limit texts.present = .ok ns) :
    ∀ t ∈ texts.present, (integer? t).isSome := by
  intro t ht
  obtain ⟨n, _, hn, _⟩ := exists_of_mem_left (integer?_of_ranged h) ht
  simp [hn]

private theorem integer?_of_word {t : String} (h : (word? t).isSome) : integer? t = none :=
  integer?_of_other ((number?_of_word h).2 0 0)

private theorem readAs_wrapped {storage : Storage} {ns : List (Option Int)}
    (hns : ns = texts.map (·.bind integer?)) (hall : ∀ t ∈ texts.present, (integer? t).isSome)
    (h : storedAs storage (convert (fun n => return .integer (n.bmod (Nat.pow 2 64))) ns) =
      .ok stored) : ∃ cells, stored = (storage, cells) ∧ ReadAs wrappedValue texts cells := by
  obtain ⟨cells, hcells, hs⟩ := storedAs_eq_ok_iff.1 h
  rw [hns, convert_map_bind hall] at hcells
  refine ⟨cells, hs, readAs_of_convert hcells ?_⟩
  intro t _ c hc
  obtain ⟨n, hn, hc⟩ := Option.bind_eq_some_iff.1 hc
  cases hc
  exact ⟨_, rfl, n, hn, rfl⟩

private theorem readAs_truncated {f : Binary64 → Option Int}
    (hf : ∀ x n, f x = some n → truncateSigned? x = some n)
    (h : convert (fun t => (number? t).bind fun x => (f x).bind fun n => some (.integer n)) texts =
      some cells) : ReadAs truncatedValue texts cells := by
  apply readAs_of_convert h
  intro t _ c hc
  obtain ⟨x, hx, hc⟩ := Option.bind_eq_some_iff.1 hc
  obtain ⟨n, hn, hc⟩ := Option.bind_eq_some_iff.1 hc
  cases hc
  refine ⟨n, rfl, ?_⟩
  rw [truncatedValue, hx, Option.bind_some]
  exact hf x n hn

private theorem readAs_bits {word : String → Option Bool}
    (hword : ∀ t ∈ texts.present, (word t).isSome → integer? t = none)
    (h : convert (fun t => (word t).bind fun b => some (.integer (if b then 1 else 0))) texts =
      some cells) : ReadAs looseValue texts cells := by
  apply readAs_of_convert h
  intro t ht c hc
  obtain ⟨b, hb, hc⟩ := Option.bind_eq_some_iff.1 hc
  cases hc
  refine ⟨_, rfl, by cases b <;> decide, fun m hm => ?_⟩
  rw [hword t ht (by simp [hb])] at hm
  cases hm

private theorem integersRead_of_signed {ns : List Int} (hc : texts.complete = true)
    (h : rangedValues (-signedLimit) signedLimit texts.present = .ok ns) :
    IntegersRead .lenient false texts (.int64, ns.map .integer) := by
  have hf := integer?_of_ranged h
  refine .whole (isSome_of_ranged h) (fun _ _ hany => ?_) (readAs_of_complete hc ?_)
  · obtain ⟨t, ht, n, hn, hbig⟩ := hany
    obtain ⟨m, _, hm, hr⟩ := exists_of_mem_left hf ht
    rw [hn] at hm
    cases hm
    omega
  · apply hf.imp
    rintro t n ⟨hn, hr⟩
    exact ⟨n, hn, (bmod_of_inSigned (inSigned_iff.2 hr)).symm⟩

private theorem integersRead_of_unsigned {ns : List Int} (hc : texts.complete = true)
    (h : rangedValues 0 unsignedLimit texts.present = .ok ns) (hbig : ∃ n ∈ ns, signedLimit ≤ n) :
    IntegersRead .lenient false texts (.uint64, ns.map .integer) := by
  have hf := integer?_of_ranged h
  refine .unsigned rfl rfl (isSome_of_ranged h) ?_ (readAs_of_complete hc ?_)
  · obtain ⟨n, hn, hle⟩ := hbig
    obtain ⟨t, ht, htn, _⟩ := exists_of_mem_right hf hn
    exact ⟨t, ht, n, htn, hle⟩
  · exact hf.imp fun t n hn => hn.1

private theorem exists_of_mixed (h : readWhole texts = .mixed) :
    ∃ t ∈ texts.present, integer? t = none := by
  by_contra hall
  simp only [not_exists, not_and] at hall
  exact readWhole_ne_mixed (fun t ht => Option.ne_none_iff_exists'.1 (hall t ht)) h

private theorem integersRead_of_readInt64 (h : readInt64 texts = .ok stored) :
    IntegersRead .lenient false texts stored := by
  unfold readInt64 at h
  split at h
  case h_1 ns hw =>
    split at h
    · next hc =>
      cases h
      exact integersRead_of_signed hc (readWhole_signed hw)
    · cases h
  case h_2 ns hw =>
    obtain ⟨hc, hv, hbig⟩ := readWhole_unsigned hw
    cases h
    exact integersRead_of_unsigned hc hv hbig
  case h_3 => cases h
  case h_4 => cases h
  case h_5 hw =>
    split at h
    · next hall =>
      split at h
      · obtain ⟨cells, hcells, hs⟩ := storedAs_eq_ok_iff.1 h
        subst hs
        exact .real (by simpa using hall) (exists_of_mixed hw)
          (readAs_truncated (fun _ _ hn => (truncateSigned?_of_wholeSigned? hn).1) hcells)
      · cases h
    · next hall =>
      have hany : ∃ t ∈ texts.present, number? t = none := by simpa using hall
      split at h
      · split at h
        · obtain ⟨cells, hcells, hs⟩ := storedAs_eq_ok_iff.1 h
          subst hs
          exact .other hany (readAs_bits (fun _ _ hb => integer?_of_word hb) hcells)
        · cases h
      · exact absurd h refused_ne_ok

private theorem integersRead_of_readNullableInt64 (g : Grammar)
    (h : readNullableInt64 texts = .ok stored) : IntegersRead g true texts stored := by
  unfold readNullableInt64 at h
  split at h
  · cases h
  · exact absurd h refused_ne_ok
  · next ns hn =>
    obtain ⟨hns, hall⟩ := readNumbers_cases hn
    obtain ⟨cells, hs, hread⟩ := readAs_wrapped hns hall h
    subst hs
    exact .whole hall (by simp) hread
  · next xs hn =>
    obtain ⟨hxs, hall, hany⟩ := readNumbers_cases hn
    split at h
    · next cells hcells =>
      cases h
      rw [hxs, convert_map_bind hall] at hcells
      exact .real hall hany
        (readAs_truncated (fun _ _ hn => (truncateSigned?_of_wholeSigned? hn).1) hcells)
    · exact absurd h refuseReals_ne_ok

theorem mem_of_exactWord? {t : String} (h : (exactWord? t).isSome) :
    t ∈ ["True", "TRUE", "true"] ++ ["False", "FALSE", "false"] := by
  unfold exactWord? at h
  split at h
  · next ht => exact List.mem_append_left _ (List.contains_iff_mem.1 ht)
  · split at h
    · next ht => exact List.mem_append_right _ (List.contains_iff_mem.1 ht)
    · cases h

private theorem integer?_of_exactWord {t : String} (h : (exactWord? t).isSome) :
    integer? t = none := by
  have hnone : ∀ u ∈ ["True", "TRUE", "true"] ++ ["False", "FALSE", "false"],
      integer? u = none := by
    decide +kernel
  exact hnone t (mem_of_exactWord? h)

/-- Texts that are read one by one keep the values of whole numbers, so one of them is no number. -/
private theorem other_of_looseIntegers {ns : List Int} (hnone : readNumbers texts = none)
    (h : looseIntegers texts = .ok ns) :
    IntegersRead .strict false texts (.int64, ns.map .integer) := by
  have hf := forall₂_of_looseIntegers h
  refine .other ?_ ?_
  · obtain ⟨t, ht, hout⟩ := exists_of_clashes (clashes_of_readNumbers hnone)
    refine ⟨t, ht, hout.resolve_right fun hbeyond => ?_⟩
    obtain ⟨n, hn, hrange⟩ := hbeyond
    obtain ⟨m, _, hm, hsigned⟩ := exists_of_mem_left hf (mem_present.1 ht)
    have hmn : m = n := looseInt?_of_integer? hn hm
    rw [hmn, inSigned_iff] at hsigned
    simp only [signedLimit, unsignedLimit] at hsigned hrange
    omega
  · rw [ReadAs, List.forall₂_map_right_iff]
    apply hf.imp
    rintro c n ⟨hn, hsigned⟩
    obtain ⟨t, hc, ht⟩ := Option.bind_eq_some_iff.1 hn
    subst hc
    exact ⟨n, rfl, hsigned, fun m hm => looseInt?_of_integer? hm ht⟩

private theorem integersRead_of_readStrictInt64 (h : readStrictInt64 texts = .ok stored) :
    IntegersRead .strict false texts stored := by
  unfold readStrictInt64 at h
  split at h
  · next ns hn =>
    obtain ⟨hns, hall⟩ := readNumbers_cases hn
    split at h
    · obtain ⟨cells, hs, hread⟩ := readAs_wrapped hns hall h
      subst hs
      exact .whole hall (by simp) hread
    · cases h
  · next xs hn =>
    obtain ⟨hxs, hall, hany⟩ := readNumbers_cases hn
    split at h
    · obtain ⟨cells, hcells, hs⟩ := storedAs_eq_ok_iff.1 h
      subst hs
      rw [hxs, convert_map_bind hall] at hcells
      exact .real hall hany (readAs_truncated (fun _ _ hn => hn) hcells)
    · cases h
  · exact absurd h refused_ne_ok
  · next hnone =>
    split at h
    · next hwords =>
      split at h
      · obtain ⟨cells, hcells, hs⟩ := storedAs_eq_ok_iff.1 h
        subst hs
        obtain ⟨t, ht, hout⟩ := exists_of_clashes (clashes_of_readNumbers hnone)
        have hnumber : number? t = none := by
          apply hout.resolve_right
          rintro ⟨n, hn, -⟩
          rw [integer?_of_exactWord (List.all_eq_true.1 hwords t ht)] at hn
          cases hn
        exact .other ⟨t, ht, hnumber⟩ (readAs_bits (fun _ _ hb => integer?_of_exactWord hb) hcells)
      · cases h
    · obtain ⟨ns, hns, hs⟩ := map_eq_ok_iff.1 h
      subst hs
      exact other_of_looseIntegers hnone hns

theorem Grammar.integersRead {g : Grammar} {nullable : Bool}
    (h : g.readColumn .int64 nullable texts = .ok stored) : IntegersRead g nullable texts stored := by
  cases nullable with
  | true =>
    cases g with
    | lenient => exact integersRead_of_readNullableInt64 _ h
    | strict => exact integersRead_of_readNullableInt64 _ h
  | false =>
    cases g with
    | lenient => exact integersRead_of_readInt64 h
    | strict => exact integersRead_of_readStrictInt64 h

end Columns

def InRange (cells : List Cell) : Prop :=
  ∀ c ∈ cells, c ≠ .missing → ∃ n, c = .integer n ∧ inSigned n = true

/-- An integer that is written out in digits keeps its value. -/
def Exact (texts : Texts) (cells : List Cell) : Prop :=
  List.Forall₂ (fun text c => ∀ t n, text = some t → signedDigits? t = some n → c = .integer n)
    texts cells

structure Faithful (nullable : Bool) (texts : Texts) (storage : String) (cells : List Cell) :
    Prop where
  layout : storage = (DataType.int64.storage nullable).name
  range : InRange cells
  exact : Exact texts cells

/-- What keeps a column of integers faithful: no whole number of a required column leaves the signed
range upwards, and no integer that is written out in digits leaves it or is changed as a binary64
value among other numbers. -/
structure Grammar.Preserves (g : Grammar) (nullable : Bool) (texts : Texts) : Prop where
  layout : g = .lenient → nullable = false → (∀ t ∈ texts.present, (integer? t).isSome) →
    ¬ texts.AnyWhole (signedLimit ≤ ·)
  digits : ∀ t ∈ texts.present, ∀ n, signedDigits? t = some n → inSigned n = true ∧
    ((∀ u ∈ texts.present, (number? u).isSome) → (∀ u ∈ texts.present, (integer? u).isSome) ∨
      truncatedValue t n)

section Faithful
variable {g : Grammar} {nullable : Bool} {texts : Texts} {cells : List Cell} {stored : Stored}
  {value : String → Int → Prop}

theorem ReadAs.inRange (h : ReadAs value texts cells)
    (hv : ∀ t n, value t n → inSigned n = true) : InRange cells := by
  intro c hc hne
  obtain ⟨text, _, hcell⟩ := exists_of_mem_right h hc
  cases text with
  | none => exact absurd hcell hne
  | some t =>
    obtain ⟨n, hn, hvalue⟩ := hcell
    exact ⟨n, hn, hv t n hvalue⟩

theorem ReadAs.exact_iff (h : ReadAs value texts cells) {P : String → Int → Prop}
    (hP : ∀ t m n, value t m → signedDigits? t = some n → (m = n ↔ P t n)) :
    Exact texts cells ↔ ∀ t ∈ texts.present, ∀ n, signedDigits? t = some n → P t n := by
  unfold Exact
  induction h with
  | nil => simp [Texts.present]
  | @cons text c texts cells hcell _ ih =>
    rw [List.forall₂_cons, ih]
    cases text with
    | none => simp
    | some t =>
      obtain ⟨m, hm, hvalue⟩ := hcell
      subst hm
      have hfirst : (∀ u n, some t = some u → signedDigits? u = some n →
          Cell.integer m = .integer n) ↔ ∀ n, signedDigits? t = some n → P t n := by
        constructor
        · intro hall n hn
          exact (hP t m n hvalue hn).1 (Cell.integer.inj (hall t n rfl hn))
        · intro hall u n hu hn
          cases hu
          rw [(hP t m n hvalue hn).2 (hall n hn)]
      rw [hfirst, present_some, List.forall_mem_cons]

theorem IntegersRead.range_or_exact (h : IntegersRead g nullable texts stored) :
    stored.1 = DataType.int64.storage nullable ∧ InRange stored.2 ∨
      stored.1 = .uint64 ∧ Exact texts stored.2 := by
  cases h with
  | whole _ _ hread =>
    refine .inl ⟨rfl, hread.inRange fun t n hv => ?_⟩
    obtain ⟨m, _, hn⟩ := hv
    rw [hn]
    exact inSigned_bmod m
  | unsigned _ _ _ _ hread =>
    refine .inr ⟨rfl, (hread.exact_iff (P := fun _ _ => True) ?_).2 (by simp)⟩
    intro t m n hm hn
    rw [integer?_of_signedDigits? hn] at hm
    simpa using hm.symm
  | real _ _ hread =>
    refine .inl ⟨rfl, hread.inRange fun t n hv => ?_⟩
    obtain ⟨x, _, hx⟩ := Option.bind_eq_some_iff.1 hv
    exact inSigned_of_truncateSigned? hx
  | other _ hread => exact .inl ⟨rfl, hread.inRange fun t n hv => hv.1⟩

theorem storage_ne_uint64 (nullable : Bool) : DataType.int64.storage nullable ≠ .uint64 := by
  cases nullable <;> decide

theorem faithful_iff_exact (h : InRange cells) :
    Faithful nullable texts (DataType.int64.storage nullable).name cells ↔ Exact texts cells :=
  ⟨fun hf => hf.exact, fun he => ⟨rfl, h, he⟩⟩

theorem truncatedValue_unique {t : String} {m n : Int} (hm : truncatedValue t m)
    (hn : truncatedValue t n) : m = n :=
  Option.some.inj (hm.symm.trans hn)

private theorem faithful_wrapped_iff (hall : ∀ t ∈ texts.present, (integer? t).isSome)
    (hsigned : g = .lenient → nullable = false → ¬ texts.AnyWhole (signedLimit ≤ ·))
    (hread : ReadAs wrappedValue texts cells) (hin : InRange cells) :
    Faithful nullable texts (DataType.int64.storage nullable).name cells ↔
      g.Preserves nullable texts := by
  rw [faithful_iff_exact hin, hread.exact_iff (P := fun _ n => inSigned n = true)]
  · constructor
    · intro h
      exact ⟨fun hg hn _ => hsigned hg hn, fun t ht n hn => ⟨h t ht n hn, fun _ => .inl hall⟩⟩
    · intro h t ht n hn
      exact (h.digits t ht n hn).1
  · rintro t m n ⟨k, hk, hm⟩ hn
    rw [integer?_of_signedDigits? hn] at hk
    cases hk
    constructor
    · intro hmn
      rw [← hmn, hm]
      exact inSigned_bmod n
    · intro hr
      rw [hm, bmod_of_inSigned hr]

private theorem faithful_truncated_iff (hall : ∀ t ∈ texts.present, (number? t).isSome)
    (hany : ∃ t ∈ texts.present, integer? t = none) (hread : ReadAs truncatedValue texts cells)
    (hin : InRange cells) : Faithful nullable texts (DataType.int64.storage nullable).name cells ↔
      g.Preserves nullable texts := by
  have hmixed : ¬ ∀ t ∈ texts.present, (integer? t).isSome := by simpa using hany
  rw [faithful_iff_exact hin, hread.exact_iff (P := truncatedValue)]
  · constructor
    · intro h
      refine ⟨fun _ _ h => absurd h hmixed, fun t ht n hn => ?_⟩
      have hv := h t ht n hn
      obtain ⟨x, _, hx⟩ := Option.bind_eq_some_iff.1 hv
      exact ⟨inSigned_of_truncateSigned? hx, fun _ => .inr hv⟩
    · intro h t ht n hn
      exact ((h.digits t ht n hn).2 hall).resolve_left hmixed
  · intro t m n hm _
    constructor
    · intro hmn
      rw [← hmn]
      exact hm
    · exact truncatedValue_unique hm

private theorem faithful_loose_iff (hany : ∃ t ∈ texts.present, number? t = none)
    (hread : ReadAs looseValue texts cells) (hin : InRange cells) :
    Faithful nullable texts (DataType.int64.storage nullable).name cells ↔
      g.Preserves nullable texts := by
  have hnumber : ¬ ∀ t ∈ texts.present, (number? t).isSome := by simpa using hany
  have hsmall : ¬ texts.AnyWhole (signedLimit ≤ ·) := by
    rintro ⟨t, ht, n, hn, hbig⟩
    obtain ⟨c, _, m, _, hm, hvalue⟩ := exists_of_mem_left hread (mem_present.1 ht)
    rw [hvalue n hn, inSigned_iff] at hm
    omega
  rw [faithful_iff_exact hin, hread.exact_iff (P := fun _ n => inSigned n = true)]
  · constructor
    · intro h
      exact ⟨fun _ _ _ => hsmall, fun t ht n hn => ⟨h t ht n hn, fun h => absurd h hnumber⟩⟩
    · intro h t ht n hn
      exact (h.digits t ht n hn).1
  · rintro t m n ⟨hm, hvalue⟩ hn
    have hmn := hvalue n (integer?_of_signedDigits? hn)
    rw [← hmn]
    simp [hm]

/-- A column is faithful exactly when its texts are of the kind that is preserved. -/
theorem IntegersRead.faithful_iff (h : IntegersRead g nullable texts stored) :
    Faithful nullable texts stored.1.name stored.2 ↔ g.Preserves nullable texts := by
  have hin (hs : stored.1 = DataType.int64.storage nullable) : InRange stored.2 := by
    apply (h.range_or_exact.resolve_right fun hr => ?_).2
    exact storage_ne_uint64 nullable (hs.symm.trans hr.1)
  cases h with
  | whole hall hsigned hread => exact faithful_wrapped_iff hall hsigned hread (hin rfl)
  | real hall hany hread => exact faithful_truncated_iff hall hany hread (hin rfl)
  | other hany hread => exact faithful_loose_iff hany hread (hin rfl)
  | unsigned hg hn hall hany _ =>
    subst hn
    constructor
    · intro h
      have hl : Storage.uint64.name = Storage.int64.name := h.layout
      exact absurd hl (by decide)
    · intro h
      exact absurd hany (h.layout hg rfl hall)

end Faithful
end QueryPlan.Csv
