import QueryPlan.Proofs.Csv.Clash
import QueryPlan.Proofs.Csv.Groupwise
import QueryPlan.Proofs.Csv.Spelling
/-!
# Forms of a column

A text has the form of a whole number of the signed range, of another number, or of a word for a
truth value. When all present texts of a column have one form, each of them becomes a cell by itself.
Columns of texts and nullable columns of truth values are converted text by text in any form.
-/
namespace QueryPlan.Csv

inductive Form where
  | whole
  /-- The digits in front of the point or the power lie in the signed range. -/
  | real
  | word
  deriving DecidableEq, Repr

def Form.Covers : Form → String → Prop
  | .whole, t => (number? t).isSome ∧ ∃ n, readRanged (-signedLimit) signedLimit t = .value n
  | .real, t => (number? t).isSome ∧ readRanged (-signedLimit) signedLimit t = .other
  | .word, t => (word? t).isSome

theorem Form.Covers.number? {form : Form} {t : String} (h : form.Covers t) (hf : form ≠ .word) :
    (number? t).isSome := by
  cases form with
  | whole => exact h.1
  | real => exact h.1
  | word => exact absurd rfl hf

theorem word?_of_number {t : String} (h : (number? t).isSome) : word? t = none := by
  cases hw : word? t with
  | none => rfl
  | some b =>
    rw [(number?_of_word (by rw [hw]; rfl)).1] at h
    cases h

section Required
variable {ts : List String}

@[simp] theorem present_map_some (ts : List String) : Texts.present (ts.map some) = ts := by
  rw [Texts.present, List.filterMap_map]
  exact List.filterMap_some

@[simp] theorem complete_map_some (ts : List String) : Texts.complete (ts.map some) = true := by
  simp [Texts.complete]

@[simp] theorem convert_map_some {α : Type} (f : α → Option Cell) (xs : List α) :
    convert f (xs.map some) = xs.mapM f := by
  rw [convert_eq_mapM, List.mapM_map]
  rfl

private theorem readWhole_of_whole (h : ∀ t ∈ ts, Form.whole.Covers t) :
    ∃ ns, readWhole (ts.map some) = .signed ns ∧
      List.Forall₂ (fun t n => integer? t = some n) ts ns := by
  obtain ⟨ns, hns⟩ := exists_forall₂ fun t ht => (h t ht).2
  refine ⟨ns, ?_, hns.imp fun t n htn => (integer?_of_readRanged htn).1⟩
  rw [readWhole, present_map_some, rangedValues_eq_ok_iff.2 hns]

private theorem readWhole_of_other {t : String} (ts : List String)
    (h : readRanged (-signedLimit) signedLimit t = .other) :
    readWhole ((t :: ts).map some) = .mixed := by
  rw [readWhole, present_map_some, rangedValues, h]

def Form.requiredInteger? : Form → String → Option Cell
  | .whole, t => (integer? t).map .integer
  | .real, t => return .integer (← wholeSigned? (← number? t))
  | .word, t => return .integer (if ← word? t then 1 else 0)

theorem readInt64_of_form {form : Form} (hne : ts ≠ [])
    (h : ∀ t ∈ ts, form.Covers t) :
    convertedCells (readInt64 (ts.map some)) = ts.mapM form.requiredInteger? := by
  cases form with
  | whole =>
    obtain ⟨ns, hw, hns⟩ := readWhole_of_whole h
    rw [readInt64, hw, complete_map_some]
    refine (mapM_eq_some_iff.2 ?_).symm
    rw [List.forall₂_map_right_iff]
    apply hns.imp
    intro t n htn
    rw [Form.requiredInteger?, htn, Option.map_some]
  | real =>
    obtain ⟨t, ts, rfl⟩ := List.exists_cons_of_ne_nil hne
    have hw := readWhole_of_other ts (h t List.mem_cons_self).2
    have hall : (t :: ts).all (fun t => (number? t).isSome) = true :=
      List.all_eq_true.2 fun u hu => (h u hu).1
    rw [readInt64, hw, present_map_some, hall, complete_map_some]
    simp only [if_true, convertedCells_storedAs, convert_map_some]
    rfl
  | word =>
    obtain ⟨t, ts, rfl⟩ := List.exists_cons_of_ne_nil hne
    obtain ⟨hn, ho⟩ := number?_of_word (h t List.mem_cons_self)
    have hw := readWhole_of_other ts (ho _ _)
    have hnum : (t :: ts).all (fun t => (number? t).isSome) = false := by
      rw [List.all_cons, hn]
      rfl
    have hall : (t :: ts).all (fun t => (word? t).isSome) = true := List.all_eq_true.2 h
    rw [readInt64, hw, present_map_some, hnum, hall, complete_map_some]
    simp only [Bool.false_eq_true, if_false, if_true, convertedCells_storedAs, convert_map_some]
    rfl

def Form.requiredTruth? : Form → String → Option Cell
  | .whole, t => return .boolean (← bit? (← integer? t))
  | .real, t => return .boolean (← bit? (← (← number? t).toInt?))
  | .word, t => return .boolean (← word? t)

theorem readBoolean_of_form {form : Form} (hne : ts ≠ [])
    (h : ∀ t ∈ ts, form.Covers t) :
    convertedCells (readBoolean (ts.map some)) = ts.mapM form.requiredTruth? := by
  rw [readBoolean, complete_map_some, convert_map_some]
  simp only [Bool.not_true, Bool.false_eq_true, if_false]
  obtain ⟨t, ts, rfl⟩ := List.exists_cons_of_ne_nil hne
  cases form with
  | whole =>
    obtain ⟨ns, hw, hns⟩ := readWhole_of_whole h
    have hword : (t :: ts).mapM (fun t => do return Cell.boolean (← word? t)) = none :=
      mapM_eq_none_of_mem List.mem_cons_self (by
        rw [word?_of_number (h t List.mem_cons_self).1]
        rfl)
    rw [hword, hw]
    simp only [convertedCells_storedAs, convert_map_some]
    refine (mapM_eq_mapM_of_forall₂ hns fun t n htn => ?_).symm
    rw [Form.requiredTruth?, htn]
    rfl
  | real =>
    have hw := readWhole_of_other ts (h t List.mem_cons_self).2
    have hword : (t :: ts).mapM (fun t => do return Cell.boolean (← word? t)) = none :=
      mapM_eq_none_of_mem List.mem_cons_self (by
        rw [word?_of_number (h t List.mem_cons_self).1]
        rfl)
    rw [hword, hw]
    simp only [convertedCells_storedAs, convert_map_some]
    rfl
  | word =>
    obtain ⟨bs, hbs⟩ := exists_forall₂ fun t ht => Option.isSome_iff_exists.1 (h t ht)
    have hword : (t :: ts).mapM (fun t => do return Cell.boolean (← word? t)) =
        some (bs.map .boolean) := by
      rw [mapM_eq_some_iff, List.forall₂_map_right_iff]
      apply hbs.imp
      intro t b htb
      rw [htb]
      rfl
    rw [hword]
    exact hword.symm

end Required

section Optional
variable {cells : Texts} {form : Form}

theorem convert_congr {f f' : String → Option Cell} (h : ∀ t ∈ cells.present, f t = f' t) :
    convert f cells = convert f' cells := by
  apply mapM_congr_of_mem
  intro c hc
  cases c with
  | none => rfl
  | some t => exact h t (mem_present.2 hc)

theorem convert_eq_none {f : String → Option Cell} {t : String} (ht : t ∈ cells.present)
    (hf : f t = none) : convert f cells = none :=
  mapM_eq_none_of_mem (mem_present.1 ht) hf

theorem convert_map_bind {α : Type} {f : α → Option Cell} {p : String → Option α}
    (h : ∀ t ∈ cells.present, (p t).isSome) :
    convert f (cells.map (·.bind p)) = convert (fun t => (p t).bind f) cells := by
  rw [convert_eq_mapM, List.mapM_map]
  apply mapM_congr_of_mem
  intro c hc
  cases c with
  | none => rfl
  | some t =>
    obtain ⟨a, ha⟩ := Option.isSome_iff_exists.1 (h t (mem_present.2 hc))
    simp [cellOf, ha]

def Form.requiredNumber? : Form → String → Option Cell
  | .word, t => return .float (.ofInt (if ← word? t then 1 else 0))
  | _, t => return .float (← number? t)

private theorem readFloat64_of_form (h : ∀ t ∈ cells.present, form.Covers t) :
    convertedCells (readFloat64 cells) = convert form.requiredNumber? cells := by
  have hnum : form ≠ .word → ∃ cs, convert (fun t => return .float (← number? t)) cells = some cs :=
    fun hf => exists_convert fun t ht => by
      obtain ⟨x, hx⟩ := Option.isSome_iff_exists.1 ((h t (mem_present.2 ht)).number? hf)
      rw [hx]
      rfl
  cases form with
  | whole =>
    obtain ⟨cs, hcs⟩ := hnum (by decide)
    rw [readFloat64, hcs]
    exact hcs.symm
  | real =>
    obtain ⟨cs, hcs⟩ := hnum (by decide)
    rw [readFloat64, hcs]
    exact hcs.symm
  | word =>
    have hcell : ∀ t ∈ cells.present, (Form.word.requiredNumber? t).isSome := by
      intro t ht
      obtain ⟨b, hb⟩ := Option.isSome_iff_exists.1 (h t ht)
      rw [Form.requiredNumber?, hb]
      rfl
    obtain ⟨cs, hcs⟩ := exists_convert fun t ht => hcell t (mem_present.2 ht)
    by_cases hp : cells.present = []
    · have hnone : convert (fun t => return .float (← number? t)) cells = some cs := by
        rw [← hcs]
        apply convert_congr
        intro t ht
        rw [hp] at ht
        cases ht
      rw [readFloat64, hnone, hcs]
      rfl
    · obtain ⟨t, ht⟩ := List.exists_mem_of_ne_nil _ hp
      have hnone : convert (fun t => return .float (← number? t)) cells = none :=
        convert_eq_none ht (by rw [(number?_of_word (h t ht)).1]; rfl)
      have hword : convert (fun t => return .float (.ofInt (if ← word? t then 1 else 0))) cells =
          some cs := hcs
      rw [readFloat64, hnone, hword, hcs]
      rfl

theorem Form.Covers.signed_of_integer? {form : Form} {t : String} {n : Int} (h : form.Covers t)
    (hf : form ≠ .word) (hn : integer? t = some n) : -signedLimit ≤ n ∧ n < signedLimit := by
  cases form with
  | whole =>
    obtain ⟨m, hm⟩ := h.2
    obtain ⟨hi, hl, hu⟩ := integer?_of_readRanged hm
    cases hn.symm.trans hi
    exact ⟨hl, hu⟩
  | real =>
    rw [integer?_of_other h.2] at hn
    cases hn
  | word => exact absurd rfl hf

private theorem clashes_of_form (hf : form ≠ .word) (h : ∀ t ∈ cells.present, form.Covers t) :
    clashes false false cells = some false := by
  have hsigned : ∀ p : Int → Prop, cells.AnyWhole p →
      ∃ n, -signedLimit ≤ n ∧ n < signedLimit ∧ p n := by
    intro p hany
    obtain ⟨t, ht, n, hn, hp⟩ := hany
    obtain ⟨hl, hu⟩ := (h t ht).signed_of_integer? hf hn
    exact ⟨n, hl, hu, hp⟩
  refine clashes_eq_false_iff.2 ⟨fun t ht => (h t ht).number? hf, fun hany => ?_, fun hclash => ?_⟩
  · obtain ⟨n, hl, hu, hout⟩ := hsigned _ hany
    simp only [signedLimit, unsignedLimit] at *
    omega
  · obtain ⟨n, _, hu, hbig⟩ := hsigned _ (hclash.2.resolve_left Bool.false_ne_true)
    omega

theorem readNumbers_of_whole (h : ∀ t ∈ cells.present, Form.whole.Covers t) :
    readNumbers cells = some (.whole (cells.map (·.bind integer?))) := by
  have hall : cells.present.all (fun t => (integer? t).isSome) = true := by
    apply List.all_eq_true.2
    intro t ht
    obtain ⟨n, hn⟩ := (h t ht).2
    rw [(integer?_of_readRanged hn).1]
    rfl
  rw [readNumbers, clashes_of_form (by decide) h, hall]
  rfl

private theorem readNumbers_of_real (h : ∀ t ∈ cells.present, Form.real.Covers t)
    (hp : cells.present ≠ []) : readNumbers cells = some (.real (cells.map (·.bind number?))) := by
  have hall : cells.present.all (fun t => (integer? t).isSome) = false := by
    obtain ⟨t, ht⟩ := List.exists_mem_of_ne_nil _ hp
    refine List.all_eq_false.2 ⟨t, ht, ?_⟩
    rw [integer?_of_other (h t ht).2]
    exact Bool.false_ne_true
  rw [readNumbers, clashes_of_form (by decide) h, hall]
  rfl

theorem readNumbers_of_word (h : ∀ t ∈ cells.present, Form.word.Covers t)
    (hp : cells.present ≠ []) : readNumbers cells = none := by
  have hclash : ∀ gap, clashes gap false cells = none := by
    induction cells with
    | nil => exact absurd rfl hp
    | cons c cells ih =>
      intro gap
      unfold clashes
      rw [Bool.and_false, if_neg Bool.false_ne_true]
      cases c with
      | none => exact ih h hp true
      | some t =>
        dsimp only
        rw [(number?_of_word (h t (mem_present.2 List.mem_cons_self))).1]
        rfl
  rw [readNumbers, hclash]
  rfl

def Form.nullableInteger? : Form → String → Option Cell
  | .whole, t => return .integer ((← integer? t).bmod (Nat.pow 2 64))
  | .real, t => return .integer (← wholeSigned? (← number? t))
  | .word, _ => none

def Form.nullableNumber? : Form → String → Option Cell
  | .whole, t => return .float (.ofInt (← integer? t))
  | .real, t => return .float (← number? t)
  | .word, _ => none

private theorem convertedCells_refuseReals (xs : List Binary64) :
    convertedCells (refuseReals xs) = none := by
  cases hr : refuseReals xs with
  | ok stored => exact absurd hr refuseReals_ne_ok
  | error e => rfl

private theorem number_of_present {ts : List String} (hf : form ≠ .word)
    (h : ∀ t ∈ ts, form.Covers t) : ∀ t ∈ ts, (number? t).isSome :=
  fun t ht => (h t ht).number? hf

theorem integer_of_present {ts : List String} (h : ∀ t ∈ ts, Form.whole.Covers t) :
    ∀ t ∈ ts, (integer? t).isSome := by
  intro t ht
  obtain ⟨n, hn⟩ := (h t ht).2
  rw [(integer?_of_readRanged hn).1]
  rfl

private theorem covers_of_empty (hp : cells.present = []) (form : Form) :
    ∀ t ∈ cells.present, form.Covers t := by
  intro t ht
  rw [hp] at ht
  cases ht

theorem readNullableInt64_of_form (h : ∀ t ∈ cells.present, form.Covers t) :
    convertedCells (readNullableInt64 cells) = convert form.nullableInteger? cells := by
  by_cases hp : cells.present = []
  · have hw := covers_of_empty hp .whole
    rw [readNullableInt64, readNumbers_of_whole hw]
    simp only [convertedCells_storedAs]
    rw [convert_map_bind (integer_of_present hw)]
    apply convert_congr
    intro t ht
    rw [hp] at ht
    cases ht
  · cases form with
    | whole =>
      rw [readNullableInt64, readNumbers_of_whole h]
      simp only [convertedCells_storedAs]
      rw [convert_map_bind (integer_of_present h)]
      rfl
    | real =>
      have hm := convert_map_bind (f := fun x => return .integer (← wholeSigned? x))
        (number_of_present (by decide) h)
      rw [readNullableInt64, readNumbers_of_real h hp]
      dsimp only
      rw [hm]
      change _ = convert (fun t => (number? t).bind _) cells
      cases convert (fun t => (number? t).bind fun x => return .integer (← wholeSigned? x)) cells with
      | none => exact convertedCells_refuseReals _
      | some cs => rfl
    | word =>
      obtain ⟨t, ht⟩ := List.exists_mem_of_ne_nil _ hp
      rw [readNullableInt64, readNumbers_of_word h hp]
      exact (convert_eq_none ht rfl).symm

private theorem readNullableFloat64_of_form (h : ∀ t ∈ cells.present, form.Covers t) :
    convertedCells (readNullableFloat64 cells) = convert form.nullableNumber? cells := by
  by_cases hp : cells.present = []
  · have hw := covers_of_empty hp .whole
    rw [readNullableFloat64, readNumbers_of_whole hw]
    simp only [convertedCells_storedAs]
    rw [convert_map_bind (integer_of_present hw)]
    apply convert_congr
    intro t ht
    rw [hp] at ht
    cases ht
  · cases form with
    | whole =>
      rw [readNullableFloat64, readNumbers_of_whole h]
      simp only [convertedCells_storedAs]
      rw [convert_map_bind (integer_of_present h)]
      rfl
    | real =>
      rw [readNullableFloat64, readNumbers_of_real h hp]
      simp only [convertedCells_storedAs]
      rw [convert_map_bind (number_of_present (by decide) h)]
      rfl
    | word =>
      obtain ⟨t, ht⟩ := List.exists_mem_of_ne_nil _ hp
      rw [readNullableFloat64, readNumbers_of_word h hp]
      exact (convert_eq_none ht rfl).symm

end Optional

/-- A column whose texts become cells one by one: of texts, of truth values that may be missing, or
of texts of one form in the lenient grammar or where cells may be missing. -/
def Settled (g : Grammar) (f : Field) (texts : Texts) : Prop :=
  f.type = .utf8 ∨ (f.type = .boolean ∧ f.nullable = true) ∨
    (g = .lenient ∨ f.nullable = true) ∧ ∃ form : Form, ∀ t ∈ texts.present, form.Covers t

private theorem separable_of_text {g : Grammar} {name : String} {nullable : Bool} {texts : Texts} :
    g.Separable ⟨name, .utf8, nullable⟩ texts := by
  refine ⟨cellOf fun t => some (.text t), fun group _ _ => ?_⟩
  have hread : g.readColumn .utf8 nullable group = readText group := by
    cases g <;> cases nullable <;> rfl
  rw [Grammar.cells?, hread, readText, convertedCells_ok, eq_comm, mapM_eq_some_iff,
    List.forall₂_map_right_iff, List.forall₂_same]
  intro c _
  cases c <;> rfl

private theorem separable_of_required {name : String} {type : DataType} {texts : Texts}
    {cell : String → Option Cell} (ht : type = .int64 ∨ type = .boolean)
    (h : ∀ ts, ts ≠ [] → (∀ t ∈ ts, t ∈ texts.present) →
      convertedCells (readColumn type false (ts.map some)) = ts.mapM cell) :
    Grammar.lenient.Separable ⟨name, type, false⟩ texts := by
  refine ⟨fun c => c.bind cell, fun group hne hm => ?_⟩
  -- a group that lacks a cell fails in both readings
  by_cases hc : group.complete = true
  · have hg := eq_map_some_of_complete hc
    have hp : group.present ≠ [] := by
      intro hp
      rw [hp] at hg
      exact hne hg
    have hts := h group.present hp fun t ht => mem_present.2 (hm _ (mem_present.1 ht))
    rw [← hg] at hts
    conv_rhs => rw [hg, List.mapM_map]
    exact hts
  · have hnone : none ∈ group := by
      rw [Texts.complete, Bool.not_eq_true, List.all_eq_false] at hc
      obtain ⟨c, hc, hs⟩ := hc
      cases c with
      | none => exact hc
      | some t => exact absurd rfl hs
    rw [mapM_eq_none_of_mem hnone rfl, Option.eq_none_iff_forall_ne_some]
    intro cells hcells
    obtain ⟨storage, hok⟩ := Grammar.cells?_eq_some_iff.1 hcells
    exact hc (Grammar.complete_of_readColumn ht hok)

private theorem separable_of_convert {g : Grammar} {f : Field} {texts : Texts}
    (cell : String → Option Cell) (h : ∀ group : Texts, (∀ t ∈ group.present, t ∈ texts.present) →
      convertedCells (g.readColumn f.type f.nullable group) = convert cell group) :
    g.Separable f texts :=
  ⟨cellOf cell, fun group _ hm =>
    h group fun _ ht => mem_present.2 (hm _ (mem_present.1 ht))⟩

private theorem separable_of_truth {g : Grammar} {name : String} {texts : Texts} :
    g.Separable ⟨name, .boolean, true⟩ texts := by
  apply separable_of_convert (fun t => return .boolean (← truthText? t))
  intro group _
  cases g <;> exact convertedCells_storedAs _ _

theorem Settled.separable {g : Grammar} {f : Field} {texts : Texts} (h : Settled g f texts) :
    g.Separable f texts := by
  obtain ⟨name, type, nullable⟩ := f
  rcases h with rfl | ⟨rfl, rfl⟩ | ⟨hg, form, hform⟩
  · exact separable_of_text
  · exact separable_of_truth
  · have hgroup : ∀ ts : List String, (∀ t ∈ ts, t ∈ texts.present) → ∀ t ∈ ts, form.Covers t :=
      fun ts hm t ht => hform t (hm t ht)
    cases nullable with
    | true =>
      cases type with
      | utf8 => exact separable_of_text
      | boolean => exact separable_of_truth
      | int64 =>
        apply separable_of_convert form.nullableInteger?
        intro group hm
        cases g <;> exact readNullableInt64_of_form (hgroup _ hm)
      | float64 =>
        apply separable_of_convert form.nullableNumber?
        intro group hm
        cases g <;> exact readNullableFloat64_of_form (hgroup _ hm)
    | false =>
      obtain rfl : g = .lenient := hg.resolve_right Bool.false_ne_true
      cases type with
      | utf8 => exact separable_of_text
      | boolean =>
        exact separable_of_required (.inr rfl) fun ts hne hm =>
          readBoolean_of_form hne (hgroup ts hm)
      | int64 =>
        exact separable_of_required (.inl rfl) fun ts hne hm =>
          readInt64_of_form hne (hgroup ts hm)
      | float64 =>
        exact separable_of_convert form.requiredNumber? fun group hm =>
          readFloat64_of_form (hgroup _ hm)

end QueryPlan.Csv
