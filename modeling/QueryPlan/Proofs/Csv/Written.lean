import QueryPlan.Proofs.Csv.Form
import QueryPlan.Proofs.Csv.Integers
/-!
# Written cells

A cell is written as a text: an integer in decimal digits, a truth value as a word, a missing cell as
the empty text. A column of cells that its field allows is read back from these texts as it was, in
either grammar.
-/
namespace QueryPlan

/-- The text of a cell. A binary64 number is left out. -/
def Cell.written : Cell → String
  | .missing => ""
  | .text s => s
  | .integer n => toString n
  | .boolean b => Text.truth b
  | .float _ => ""

/-- What a field may hold so that a text says what it was: no text with a null character, and none that
marks a missing cell. -/
def Field.Allows (f : Field) : Cell → Prop
  | .missing => f.nullable = true
  | .text s => f.type = .utf8 ∧ '\x00' ∉ s.toList ∧ s ∉ Csv.missingSpellings
  | .integer n => f.type = .int64 ∧ Csv.inSigned n = true
  | .boolean _ => f.type = .boolean
  | .float _ => False

instance (f : Field) : DecidablePred f.Allows
  | .missing => inferInstanceAs (Decidable (_ = _))
  | .text _ => inferInstanceAs (Decidable (_ ∧ _ ∧ _))
  | .integer _ => inferInstanceAs (Decidable (_ ∧ _))
  | .boolean _ => inferInstanceAs (Decidable (_ = _))
  | .float _ => inferInstanceAs (Decidable False)

namespace Field
variable {f : Field} {c : Cell}

theorem Allows.text (h : f.Allows c) (hf : f.type = .utf8) (hc : c ≠ .missing) :
    ∃ s, c = .text s := by
  cases c with
  | missing => exact absurd rfl hc
  | text s => exact ⟨s, rfl⟩
  | integer n => exact absurd (hf.symm.trans h.1) (by decide)
  | boolean b => exact absurd (hf.symm.trans h) (by decide)
  | float x => exact h.elim

theorem Allows.integer (h : f.Allows c) (hf : f.type = .int64) (hc : c ≠ .missing) :
    ∃ n, c = .integer n ∧ Csv.inSigned n = true := by
  cases c with
  | missing => exact absurd rfl hc
  | text s => exact absurd (hf.symm.trans h.1) (by decide)
  | integer n => exact ⟨n, rfl, h.2⟩
  | boolean b => exact absurd (hf.symm.trans h) (by decide)
  | float x => exact h.elim

theorem Allows.boolean (h : f.Allows c) (hf : f.type = .boolean) (hc : c ≠ .missing) :
    ∃ b, c = .boolean b := by
  cases c with
  | missing => exact absurd rfl hc
  | text s => exact absurd (hf.symm.trans h.1) (by decide)
  | integer n => exact absurd (hf.symm.trans h.1) (by decide)
  | boolean b => exact ⟨b, rfl⟩
  | float x => exact h.elim

end Field

namespace Csv

theorem toString_not_mem (n : Int) : toString n ∉ missingSpellings := by
  have hnone : ∀ t ∈ missingSpellings, integer? t = none := by decide +kernel
  intro hm
  have hn := integer?_toString n
  rw [hnone _ hm] at hn
  cases hn

section Texts
variable {f : Field} {cells : List Cell}

theorem present?_written {c : Cell} (h : f.Allows c) (hc : c ≠ .missing) :
    present? c.written = some c.written := by
  have hmem : c.written ∉ missingSpellings := by
    cases c with
    | missing => exact absurd rfl hc
    | text s => exact h.2.2
    | integer n => exact toString_not_mem n
    | boolean b => cases b <;> decide
    | float x => exact h.elim
  rw [present?, if_neg]
  rwa [List.contains_iff_mem]

theorem not_mem_written {c : Cell} (h : f.Allows c) : '\x00' ∉ c.written.toList := by
  cases c with
  | missing => decide
  | text s => exact h.2.1
  | integer n =>
    intro hm
    have hnull := mem_toString hm
    simp at hnull
  | boolean b => cases b <;> decide
  | float x => exact h.elim

def writtenTexts (cells : List Cell) : Texts :=
  cells.map fun c => present? c.written

theorem exists_of_mem_present (h : ∀ c ∈ cells, f.Allows c) {t : String}
    (ht : t ∈ (writtenTexts cells).present) : ∃ c, f.Allows c ∧ c ≠ .missing ∧ c.written = t := by
  obtain ⟨c, hc, htext⟩ := List.mem_map.1 (mem_present.1 ht)
  have hne : c ≠ .missing := by
    intro hm
    subst hm
    cases htext
  rw [present?_written (h c hc) hne] at htext
  exact ⟨c, h c hc, hne, Option.some.inj htext⟩

theorem convert_written {cell : String → Option Cell} (h : ∀ c ∈ cells, f.Allows c)
    (hcell : ∀ c ∈ cells, c ≠ .missing → cell c.written = some c) :
    convert cell (writtenTexts cells) = some cells := by
  rw [convert_eq_some_iff, writtenTexts, List.forall₂_map_left_iff, List.forall₂_same]
  intro c hc
  by_cases hm : c = .missing
  · subst hm
    rfl
  · rw [present?_written (h c hc) hm]
    exact hcell c hc hm

theorem writtenTexts_of_required (hf : f.nullable = false) (h : ∀ c ∈ cells, f.Allows c) :
    writtenTexts cells = (cells.map Cell.written).map some := by
  rw [writtenTexts, List.map_map]
  apply List.map_congr_left
  intro c hc
  apply present?_written (h c hc)
  intro hm
  subst hm
  exact absurd (h .missing hc) (by simp [Field.Allows, hf])

end Texts

private theorem nullableInteger?_toString {n : Int} (hn : inSigned n = true) :
    Form.whole.nullableInteger? (toString n) = some (.integer n) := by
  rw [Form.nullableInteger?, integer?_toString]
  simp [bmod_of_inSigned hn]

section Integers
variable {f : Field} {cells : List Cell} (hf : f.type = .int64) (h : ∀ c ∈ cells, f.Allows c)

include hf h

theorem covers_written_integers : ∀ t ∈ (writtenTexts cells).present, Form.whole.Covers t := by
  intro t ht
  obtain ⟨c, hc, hne, hwritten⟩ := exists_of_mem_present h ht
  obtain ⟨n, hn, hsigned⟩ := hc.integer hf hne
  have hrange := inSigned_iff.1 hsigned
  subst hwritten hn
  refine ⟨number?_toString ?_, n, ?_⟩
  · simp only [signedLimit] at hrange
    omega
  · rw [Cell.written, readRanged_of_integer? (integer?_toString n), if_neg (by omega)]

theorem convert_written_integers {cell : String → Option Cell}
    (hcell : ∀ n, inSigned n = true → cell (toString n) = some (.integer n)) :
    convert cell (writtenTexts cells) = some cells := by
  apply convert_written h
  intro c hc hne
  obtain ⟨n, hn, hsigned⟩ := (h c hc).integer hf hne
  subst hn
  exact hcell n hsigned

theorem readNullableInt64_written :
    convertedCells (readNullableInt64 (writtenTexts cells)) = some cells := by
  rw [readNullableInt64_of_form (covers_written_integers hf h)]
  exact convert_written_integers hf h fun n hn => nullableInteger?_toString hn

variable (hr : f.nullable = false)

include hr

theorem readInt64_written (hne : cells ≠ []) :
    convertedCells (readInt64 (writtenTexts cells)) = some cells := by
  have hcovers := covers_written_integers hf h
  have hback : convert Form.whole.requiredInteger? (writtenTexts cells) = some cells :=
    convert_written_integers hf h fun n _ => by
      rw [Form.requiredInteger?, integer?_toString, Option.map_some]
  rw [writtenTexts_of_required hr h] at hcovers hback ⊢
  rw [present_map_some] at hcovers
  rw [readInt64_of_form (by simpa using hne) hcovers, ← convert_map_some, hback]

theorem readStrictInt64_written :
    convertedCells (readStrictInt64 (writtenTexts cells)) = some cells := by
  have hcovers := covers_written_integers hf h
  have hcomplete : (writtenTexts cells).complete = true := by
    rw [writtenTexts_of_required hr h, complete_map_some]
  rw [readStrictInt64, readNumbers_of_whole hcovers]
  simp only [hcomplete, if_true, convertedCells_storedAs]
  rw [convert_map_bind (integer_of_present hcovers)]
  exact convert_written_integers hf h fun n hn => nullableInteger?_toString hn

end Integers

section Booleans
variable {f : Field} {cells : List Cell} (hf : f.type = .boolean) (h : ∀ c ∈ cells, f.Allows c)

include hf h

theorem covers_written_booleans : ∀ t ∈ (writtenTexts cells).present, Form.word.Covers t := by
  intro t ht
  obtain ⟨c, hc, hne, hwritten⟩ := exists_of_mem_present h ht
  obtain ⟨b, hb⟩ := hc.boolean hf hne
  subst hwritten hb
  cases b <;> rfl

theorem convert_written_booleans {cell : String → Option Cell}
    (hcell : ∀ b, cell (Text.truth b) = some (.boolean b)) :
    convert cell (writtenTexts cells) = some cells := by
  apply convert_written h
  intro c hc hne
  obtain ⟨b, hb⟩ := (h c hc).boolean hf hne
  subst hb
  exact hcell b

theorem readNullableBoolean_written :
    convertedCells (readNullableBoolean (writtenTexts cells)) = some cells := by
  rw [readNullableBoolean, convertedCells_storedAs]
  exact convert_written_booleans hf h fun b => by cases b <;> decide

variable (hr : f.nullable = false) (hne : cells ≠ [])

include hr hne

theorem readBoolean_written :
    convertedCells (readBoolean (writtenTexts cells)) = some cells := by
  have hcovers := covers_written_booleans hf h
  have hback : convert Form.word.requiredTruth? (writtenTexts cells) = some cells :=
    convert_written_booleans hf h fun b => by cases b <;> decide
  rw [writtenTexts_of_required hr h] at hcovers hback ⊢
  rw [present_map_some] at hcovers
  rw [readBoolean_of_form (by simpa using hne) hcovers, ← convert_map_some, hback]

theorem readStrictBoolean_written :
    convertedCells (readStrictBoolean (writtenTexts cells)) = some cells := by
  have hcovers := covers_written_booleans hf h
  have hcomplete : (writtenTexts cells).complete = true := by
    rw [writtenTexts_of_required hr h, complete_map_some]
  have hpresent : (writtenTexts cells).present ≠ [] := by
    rw [writtenTexts_of_required hr h, present_map_some]
    simpa using hne
  have hwords : (writtenTexts cells).areWords = true := by
    apply List.all_eq_true.2
    intro t ht
    obtain ⟨c, hc, hpresent, hwritten⟩ := exists_of_mem_present h ht
    obtain ⟨b, hb⟩ := hc.boolean hf hpresent
    subst hwritten hb
    cases b <;> decide
  rw [readStrictBoolean, readNumbers_of_word hcovers hpresent]
  simp only [hcomplete, hwords, Bool.not_true, Bool.false_eq_true, if_false, if_true,
    convertedCells_storedAs]
  exact convert_written_booleans hf h fun b => by cases b <;> decide

end Booleans

theorem readText_written {f : Field} {cells : List Cell} (hf : f.type = .utf8)
    (h : ∀ c ∈ cells, f.Allows c) : convertedCells (readText (writtenTexts cells)) = some cells := by
  rw [readText, convertedCells_ok, writtenTexts, List.map_map, Option.some.injEq]
  conv_rhs => rw [← List.map_id cells]
  apply List.map_congr_left
  intro c hc
  by_cases hm : c = .missing
  · subst hm
    rfl
  · obtain ⟨s, hs⟩ := (h c hc).text hf hm
    rw [Function.comp_apply, present?_written (h c hc) hm, hs]
    rfl

/-- A column of cells that its field allows is read back from their texts. -/
theorem Grammar.cells?_written (g : Grammar) {f : Field} {cells : List Cell}
    (hf : f.type ≠ .float64) (hne : cells ≠ []) (h : ∀ c ∈ cells, f.Allows c) :
    g.cells? f (writtenTexts cells) = some cells := by
  obtain ⟨name, type, nullable⟩ := f
  cases type with
  | float64 => exact absurd rfl hf
  | utf8 => cases g <;> cases nullable <;> exact readText_written rfl h
  | int64 =>
    cases nullable with
    | true => cases g <;> exact readNullableInt64_written rfl h
    | false =>
      cases g with
      | lenient => exact readInt64_written rfl h rfl hne
      | strict => exact readStrictInt64_written rfl h rfl
  | boolean =>
    cases nullable with
    | true => cases g <;> exact readNullableBoolean_written rfl h
    | false =>
      cases g with
      | lenient => exact readBoolean_written rfl h rfl hne
      | strict => exact readStrictBoolean_written rfl h rfl hne

end Csv
end QueryPlan
