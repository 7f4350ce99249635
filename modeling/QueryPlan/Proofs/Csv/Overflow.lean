import QueryPlan.Proofs.Csv.Clash
import QueryPlan.Proofs.Csv.Spelling
/-!
# Numbers without a place

A column that does not convert is malformed, unless a text in a column of integers leads out of the
signed range. Where all texts are whole numbers, a required column overflows exactly when one of them
lies beyond the unsigned range, or when one lies below the signed range and none above it.
-/
namespace QueryPlan

private theorem foldl_chosen {α : Type} {f : Option α → α → Option α}
    (hf : ∀ best x, f best x = some x ∨ f best x = best ∧ best ≠ none) (xs : List α) :
    ∀ best, (∀ x, xs.foldl f best = some x → x ∈ xs ∨ best = some x) ∧
      (xs.foldl f best = none → xs = [] ∧ best = none) := by
  induction xs with
  | nil =>
    intro best
    exact ⟨fun x hx => .inr hx, fun hx => ⟨rfl, hx⟩⟩
  | cons y ys ih =>
    intro best
    rw [List.foldl_cons]
    obtain ⟨hmem, hnone⟩ := ih (f best y)
    rcases hf best y with hy | ⟨hb, hne⟩
    · rw [hy] at hmem hnone ⊢
      refine ⟨fun x hx => .inl ?_, fun hx => ?_⟩
      · rcases hmem x hx with hx | hx
        · exact List.mem_cons_of_mem _ hx
        · cases hx
          exact List.mem_cons_self
      · cases (hnone hx).2
    · rw [hb] at hmem hnone ⊢
      refine ⟨fun x hx => (hmem x hx).imp_left (List.mem_cons_of_mem _), fun hx => ?_⟩
      exact absurd (hnone hx).2 hne

private theorem foldl_none_chosen {α : Type} {f : Option α → α → Option α}
    (hf : ∀ best x, f best x = some x ∨ f best x = best ∧ best ≠ none) (xs : List α) :
    (∀ x, xs.foldl f none = some x → x ∈ xs) ∧ (xs.foldl f none = none → xs = []) := by
  obtain ⟨hmem, hnone⟩ := foldl_chosen hf xs none
  exact ⟨fun x hx => (hmem x hx).resolve_right (by simp), fun hx => (hnone hx).1⟩

theorem Binary64.greatest?_spec (xs : List Binary64) :
    (∀ x, greatest? xs = some x → x ∈ xs) ∧ (greatest? xs = none → xs = []) := by
  refine foldl_none_chosen (fun best x => ?_) xs
  cases best with
  | none => exact .inl rfl
  | some b =>
    by_cases hlt : b.rank < x.rank
    · exact .inl (if_pos hlt)
    · exact .inr ⟨if_neg hlt, by simp⟩

end QueryPlan

namespace QueryPlan.Csv

inductive LeadsOut (t : String) : Prop
  | whole (h : readRanged (-signedLimit) signedLimit t = .beyond)
  | real {x : Binary64} (hx : number? t = some x) (h : x.truncate?.any inSigned = false)
  | loose {n : Int} (hn : Loose.int? t = some n) (h : inSigned n = false)

def Fails (type : DataType) (cells : Texts) (e : ReadError) : Prop :=
  e = .source .malformed ∨ e = .overflow ∧ type = .int64 ∧ ∃ t ∈ cells.present, LeadsOut t

theorem storedAs_eq_error {storage : Storage} {x : Option (List Cell)} {e : ReadError}
    (h : storedAs storage x = .error e) : e = .source .malformed := by
  cases x with
  | none => exact malformed_eq_error_iff.1 h
  | some cells => cases h

theorem exists_of_convert_none {α : Type} {f : α → Option Cell} {xs : List (Option α)}
    (h : convert f xs = none) : ∃ a, some a ∈ xs := by
  by_contra hn
  obtain ⟨cs, hcs⟩ := exists_convert (f := f) fun a ha => absurd ⟨a, ha⟩ hn
  rw [hcs] at h
  cases h

section Fails
variable {cells : Texts} {e : ReadError}

theorem fails_of_storedAs {type : DataType} {storage : Storage} {x : Option (List Cell)}
    (h : storedAs storage x = .error e) : Fails type cells e :=
  .inl (storedAs_eq_error h)

theorem fails_malformed {type : DataType} {α : Type} (h : (malformed : Except _ α) = .error e) :
    Fails type cells e :=
  .inl (malformed_eq_error_iff.1 h)

private theorem readWhole_overflow (h : readWhole cells = .overflow) :
    ∃ t ∈ cells.present, LeadsOut t := by
  unfold readWhole at h
  split at h
  · cases h
  · next hv =>
    obtain ⟨t, ht, hr, -⟩ := exists_of_rangedValues_error hv
    exact ⟨t, ht, .whole hr⟩
  · cases h

private theorem looseIntegers_fails (h : looseIntegers cells = .error e) :
    Fails .int64 cells e := by
  induction cells with
  | nil => cases h
  | cons c cells ih =>
    rw [looseIntegers] at h
    split at h
    · exact fails_malformed h
    · next n hn =>
      obtain ⟨t, rfl, ht⟩ := Option.bind_eq_some_iff.1 hn
      split at h
      · rcases ih (map_eq_error_iff.1 h) with he | ⟨he, -, u, hu, hl⟩
        · exact .inl he
        · have hmem := List.mem_cons_of_mem (some t) (mem_present.1 hu)
          exact .inr ⟨he, rfl, u, mem_present.2 hmem, hl⟩
      · next hs =>
        cases h
        exact .inr ⟨rfl, rfl, t, mem_present.2 List.mem_cons_self, .loose ht (by simpa using hs)⟩

private theorem refused_fails {texts : Texts} (hp : texts.present = cells.present)
    (h : refused (looseIntegers texts) = .error e) : Fails .int64 cells e := by
  unfold refused at h
  rcases bind_eq_error_iff.1 h with h | ⟨ns, -, h⟩
  · have hf := looseIntegers_fails h
    rwa [Fails, hp] at hf
  · exact fails_malformed h

private theorem readInt64_fails (h : readInt64 cells = .error e) : Fails .int64 cells e := by
  unfold readInt64 at h
  split at h
  · split at h
    · cases h
    · exact fails_malformed h
  · cases h
  · next hw =>
    cases h
    exact .inr ⟨rfl, rfl, readWhole_overflow hw⟩
  · exact fails_malformed h
  · split at h
    · split at h
      · exact fails_of_storedAs h
      · exact fails_malformed h
    · split at h
      · split at h
        · exact fails_of_storedAs h
        · exact fails_malformed h
      · exact refused_fails rfl h

private theorem refuseReals_fails {xs : List Binary64} (hne : xs ≠ [])
    (hm : ∀ x ∈ xs, ∃ t ∈ cells.present, number? t = some x) (h : refuseReals xs = .error e) :
    Fails .int64 cells e := by
  obtain ⟨hmem, hnone⟩ := Binary64.greatest?_spec xs
  unfold refuseReals at h
  split at h
  · next hg => exact absurd (hnone hg) hne
  · next negative hg =>
    cases h
    obtain ⟨t, ht, hx⟩ := hm _ (hmem _ hg)
    exact .inr ⟨rfl, rfl, t, ht, .real hx rfl⟩
  · split at h
    · next hany =>
      cases h
      obtain ⟨x, hx, hout⟩ := List.any_eq_true.1 (Bool.and_eq_true_iff.1 hany).2
      obtain ⟨t, ht, hn⟩ := hm x hx
      exact .inr ⟨rfl, rfl, t, ht, .real hn (by simpa using hout)⟩
    · exact fails_malformed h

private theorem readNullableInt64_fails (h : readNullableInt64 cells = .error e) :
    Fails .int64 cells e := by
  unfold readNullableInt64 at h
  split at h
  · exact fails_malformed h
  · exact refused_fails (by simp [Texts.present]) h
  · exact fails_of_storedAs h
  · next xs hn =>
    split at h
    · cases h
    · next hconvert =>
      obtain ⟨y, hy⟩ := exists_of_convert_none hconvert
      refine refuseReals_fails (List.ne_nil_of_mem (List.mem_filterMap.2 ⟨_, hy, rfl⟩)) ?_ h
      intro x hx
      obtain ⟨_, hx, rfl⟩ := List.mem_filterMap.1 hx
      rw [readNumbers_real hn] at hx
      obtain ⟨c, hc, hx⟩ := List.mem_map.1 hx
      obtain ⟨t, rfl, ht⟩ := Option.bind_eq_some_iff.1 hx
      exact ⟨t, mem_present.2 hc, ht⟩

private theorem readStrictInt64_fails (h : readStrictInt64 cells = .error e) :
    Fails .int64 cells e := by
  unfold readStrictInt64 at h
  split at h
  · split at h
    · exact fails_of_storedAs h
    · exact fails_malformed h
  · split at h
    · exact fails_of_storedAs h
    · exact fails_malformed h
  · exact refused_fails rfl h
  · split at h
    · split at h
      · exact fails_of_storedAs h
      · exact fails_malformed h
    · exact looseIntegers_fails (map_eq_error_iff.1 h)

private theorem readFloat64_fails (h : readFloat64 cells = .error e) : Fails .float64 cells e := by
  unfold readFloat64 at h
  split at h
  · cases h
  · split at h
    · cases h
    · split at h
      · split at h
        · cases h
        · exact fails_malformed h
      · split at h
        · cases h
        · exact fails_malformed h
      · exact fails_malformed h

private theorem readBoolean_fails (h : readBoolean cells = .error e) : Fails .boolean cells e := by
  unfold readBoolean at h
  split at h
  · exact fails_malformed h
  · split at h
    · cases h
    · split at h
      · exact fails_of_storedAs h
      · exact fails_of_storedAs h
      · exact fails_malformed h

private theorem readNullableFloat64_fails (h : readNullableFloat64 cells = .error e) :
    Fails .float64 cells e := by
  unfold readNullableFloat64 at h
  split at h
  · exact fails_malformed h
  · exact fails_of_storedAs h
  · exact fails_of_storedAs h
  · exact fails_of_storedAs h

private theorem readStrictFloat64_fails (h : readStrictFloat64 cells = .error e) :
    Fails .float64 cells e := by
  unfold readStrictFloat64 at h
  split at h
  · split at h
    · exact fails_of_storedAs h
    · exact fails_of_storedAs h
  · exact fails_of_storedAs h
  · split at h
    · exact fails_of_storedAs h
    · exact fails_malformed h
  · split at h
    · exact fails_of_storedAs h
    · exact fails_of_storedAs h

private theorem readStrictBoolean_fails (h : readStrictBoolean cells = .error e) :
    Fails .boolean cells e := by
  unfold readStrictBoolean at h
  split at h
  · exact fails_malformed h
  · split at h
    · exact fails_of_storedAs h
    · exact fails_of_storedAs h
    · cases h
    · split at h
      · exact fails_of_storedAs h
      · cases h

private theorem readColumn_fails {type : DataType} {nullable : Bool}
    (h : readColumn type nullable cells = .error e) : Fails type cells e := by
  cases type <;> cases nullable
  case utf8.false => cases h
  case utf8.true => cases h
  case int64.false => exact readInt64_fails h
  case int64.true => exact readNullableInt64_fails h
  case boolean.false => exact readBoolean_fails h
  case boolean.true => exact fails_of_storedAs h
  case float64.false => exact readFloat64_fails h
  case float64.true => exact readNullableFloat64_fails h

/-- A column fails as malformed, or as one of integers with a text that leads out of the range. -/
theorem Grammar.readColumn_fails {g : Grammar} {type : DataType} {nullable : Bool}
    (h : g.readColumn type nullable cells = .error e) : Fails type cells e := by
  cases g with
  | lenient => exact Csv.readColumn_fails h
  | strict =>
    cases type <;> cases nullable
    case int64.false => exact readStrictInt64_fails h
    case boolean.false => exact readStrictBoolean_fails h
    case float64.false => exact readStrictFloat64_fails h
    case utf8.false => cases h
    case utf8.true => cases h
    case int64.true => exact readNullableInt64_fails h
    case boolean.true => exact fails_of_storedAs h
    case float64.true => exact readNullableFloat64_fails h

end Fails

section Whole
variable {cells : Texts} {texts : List String}

private theorem rangedValues_cases (h : ∀ t ∈ texts, ∃ n, integer? t = some n)
    (least limit : Int) :
    (∃ ns, rangedValues least limit texts = .ok ns ∧ List.Forall₂ (fun t n =>
      integer? t = some n ∧ least ≤ n ∧ n < limit) texts ns) ∨
    rangedValues least limit texts = .error .beyond ∧
      ∃ t ∈ texts, ∃ n, integer? t = some n ∧ (n < least ∨ limit ≤ n) := by
  cases hr : rangedValues least limit texts with
  | ok ns =>
    have hf := rangedValues_eq_ok_iff.1 hr
    exact .inl ⟨ns, rfl, hf.imp fun t n => integer?_of_readRanged⟩
  | error r =>
    obtain ⟨t, ht, rfl, hne⟩ := exists_of_rangedValues_error hr
    obtain ⟨n, hn⟩ := h t ht
    have hread := readRanged_of_integer? hn least limit
    by_cases hout : n < least ∨ limit ≤ n
    · rw [if_pos hout] at hread
      exact .inr ⟨by rw [hread], t, ht, n, hn, hout⟩
    · rw [if_neg hout] at hread
      exact absurd hread (hne n)

private theorem mem_filter_of_pos {t : String} {n : Int} (ht : t ∈ cells.present)
    (hn : integer? t = some n) (hpos : 0 < n) :
    t ∈ cells.present.filter (!startsNegative ·) := by
  have hs := sign_of_integer? hn
  refine List.mem_filter.2 ⟨ht, ?_⟩
  cases hneg : startsNegative t with
  | false => rfl
  | true =>
    rw [hneg, if_pos rfl] at hs
    omega

private theorem unsignedWhole_of_ok {ns : List Int}
    (hv : rangedValues 0 unsignedLimit (cells.present.filter (!startsNegative ·)) = .ok ns)
    (hf : List.Forall₂ (fun t n => integer? t = some n ∧ 0 ≤ n ∧ n < unsignedLimit)
      (cells.present.filter (!startsNegative ·)) ns) :
    (cells.AnyWhole (signedLimit ≤ ·) → unsignedWhole cells ≠ .overflow) ∧
      (¬ cells.AnyWhole (signedLimit ≤ ·) → cells.AnyWhole (· < -signedLimit) →
        unsignedWhole cells = .overflow) := by
  rw [unsignedWhole, hv]
  dsimp only
  constructor
  · rintro ⟨t, ht, n, hn, hbig⟩
    have hpos : 0 < n := by
      simp only [signedLimit] at hbig
      omega
    obtain ⟨m, hm, hmn, -⟩ := exists_of_mem_left hf (mem_filter_of_pos ht hn hpos)
    cases hn.symm.trans hmn
    have hany : ns.any (signedLimit ≤ ·) = true :=
      List.any_eq_true.2 ⟨n, hm, decide_eq_true hbig⟩
    rw [hany, Bool.true_and]
    cases hneg : cells.present.any startsNegative with
    | true => simp
    | false =>
      rw [Bool.false_or]
      cases cells.complete <;> simp
  · rintro hsmall ⟨t, ht, n, hn, hlow⟩
    have hany : ns.any (signedLimit ≤ ·) = false := by
      rw [List.any_eq_false]
      intro m hm hbig
      obtain ⟨u, hu, hum, -⟩ := exists_of_mem_right hf hm
      exact hsmall ⟨u, (List.mem_filter.1 hu).1, m, hum, of_decide_eq_true hbig⟩
    have hneg : cells.present.any startsNegative = true := by
      refine List.any_eq_true.2 ⟨t, ht, ?_⟩
      have hs := sign_of_integer? hn
      by_contra hneg
      rw [if_neg hneg] at hs
      simp only [signedLimit] at hlow
      omega
    rw [hany, hneg]
    rfl

theorem readWhole_ne_mixed (h : ∀ t ∈ cells.present, ∃ n, integer? t = some n) :
    readWhole cells ≠ .mixed := by
  have hfilter : ∀ t ∈ cells.present.filter (!startsNegative ·), ∃ n, integer? t = some n :=
    fun t ht => h t (List.mem_filter.1 ht).1
  unfold readWhole
  rcases rangedValues_cases h (-signedLimit) signedLimit with ⟨ns, hv, -⟩ | ⟨hv, -⟩
  · rw [hv]
    simp
  · rw [hv]
    unfold unsignedWhole
    rcases rangedValues_cases hfilter 0 unsignedLimit with ⟨ms, hms, -⟩ | ⟨hb, -⟩
    · rw [hms]
      dsimp only
      split
      · simp
      · split <;> simp
    · rw [hb]
      simp

private theorem readInt64_eq_overflow_iff (h : readWhole cells ≠ .mixed) :
    readInt64 cells = .error .overflow ↔ readWhole cells = .overflow := by
  rw [readInt64]
  cases hw : readWhole cells with
  | signed ns => cases cells.complete <;> simp [malformed]
  | unsigned ns => simp
  | overflow => simp
  | conflict => simp [malformed]
  | mixed => exact absurd hw h

/-- Where a whole number lies beyond the signed range, the texts without a minus sign are read once
more as unsigned. -/
private theorem unsignedWhole_overflow_iff (h : ∀ t ∈ cells.present, ∃ n, integer? t = some n)
    (hout : cells.AnyWhole fun n => n < -signedLimit ∨ signedLimit ≤ n) :
    unsignedWhole cells = .overflow ↔ cells.AnyWhole (unsignedLimit ≤ ·) ∨
      cells.AnyWhole (· < -signedLimit) ∧ ¬ cells.AnyWhole (signedLimit ≤ ·) := by
  obtain ⟨t, ht, n, hn, hout⟩ := hout
  have hfilter : ∀ t ∈ cells.present.filter (!startsNegative ·), ∃ n, integer? t = some n :=
    fun t ht => h t (List.mem_filter.1 ht).1
  rcases rangedValues_cases hfilter 0 unsignedLimit with
    ⟨ms, hms, hf⟩ | ⟨hb, u, hu, k, hk, hbeyond⟩
  · obtain ⟨hbig, hlow⟩ := unsignedWhole_of_ok hms hf
    have hbelow : ¬ cells.AnyWhole (unsignedLimit ≤ ·) := by
      rintro ⟨u, hu, m, hm, hle⟩
      have hpos : 0 < m := by
        simp only [unsignedLimit] at hle
        omega
      obtain ⟨k, -, hk, hr⟩ := exists_of_mem_left hf (mem_filter_of_pos hu hm hpos)
      cases hm.symm.trans hk
      omega
    constructor
    · intro ho
      have hsmall : ¬ cells.AnyWhole (signedLimit ≤ ·) := fun hw => hbig hw ho
      refine .inr ⟨⟨t, ht, n, hn, ?_⟩, hsmall⟩
      exact hout.resolve_right fun hle => hsmall ⟨t, ht, n, hn, hle⟩
    · rintro (hw | ⟨hw, hsmall⟩)
      · exact absurd hw hbelow
      · exact hlow hsmall hw
  · have hs := sign_of_integer? hk
    have hnn : startsNegative u = false := by simpa using (List.mem_filter.1 hu).2
    rw [hnn, if_neg Bool.false_ne_true] at hs
    have hle : unsignedLimit ≤ k := hbeyond.resolve_left (by omega)
    have ho : unsignedWhole cells = .overflow := by
      rw [unsignedWhole, hb]
    exact ⟨fun _ => .inl ⟨u, (List.mem_filter.1 hu).1, k, hk, hle⟩, fun _ => ho⟩

/-- A required column of whole numbers overflows when one lies beyond the unsigned range, or when one
lies below the signed range and none above it. -/
theorem readInt64_overflow_iff (h : ∀ t ∈ cells.present, ∃ n, integer? t = some n) :
    readInt64 cells = .error .overflow ↔ cells.AnyWhole (unsignedLimit ≤ ·) ∨
      cells.AnyWhole (· < -signedLimit) ∧ ¬ cells.AnyWhole (signedLimit ≤ ·) := by
  rw [readInt64_eq_overflow_iff (readWhole_ne_mixed h), readWhole]
  rcases rangedValues_cases h (-signedLimit) signedLimit with ⟨ns, hv, hf⟩ | ⟨hv, hout⟩
  · have hrange : ∀ t ∈ cells.present, ∀ n, integer? t = some n →
        -signedLimit ≤ n ∧ n < signedLimit := by
      intro t ht n hn
      obtain ⟨m, -, hm, hr⟩ := exists_of_mem_left hf ht
      cases hn.symm.trans hm
      exact hr
    rw [hv]
    constructor
    · intro ho
      cases ho
    · rintro (⟨t, ht, n, hn, hb⟩ | ⟨⟨t, ht, n, hn, hb⟩, -⟩)
      · have hr := hrange t ht n hn
        simp only [signedLimit, unsignedLimit] at hr hb
        omega
      · have hr := hrange t ht n hn
        omega
  · rw [hv]
    exact unsignedWhole_overflow_iff h hout

end Whole

end QueryPlan.Csv
