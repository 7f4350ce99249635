import QueryPlan.Proofs.Scan.Batches
/-!
# Records of the wrong width

The width that a scan checks is that of the first record. Other records are cut or padded to it, as
long as none is wider than the first one of its batch. A file with records of other widths is
therefore accepted whenever its batches are accepted with all records cut and padded, and nothing of
the frames tells that they were.
-/
namespace QueryPlan.CsvSource
open Csv

/-- A record with `width` cells: the others are cut off, and empty ones are added. -/
def fitted (width : Nat) (row : Row) : Row :=
  row.take width ++ List.replicate (width - row.length) ""

def HasWidth (s : CsvSource) (batches : List (List Row)) : Prop :=
  ∀ batch ∈ batches, ∀ row ∈ batch, row.length = s.schema.width

def RefusesWidths (s : CsvSource) (files : String → Except SourceFault ByteArray)
    (P : List String) : Prop :=
  ∀ fs, (s.scan files P).result = .ok fs →
    ∃ batches, s.batches? (files s.path) = some batches ∧ s.HasWidth batches

/-- How a record of the wrong width gets past a scan. A wide one stands in a later batch behind one
that is as wide; a short one lacks only cells that are missed in no column asked for. -/
structure Overlooked (s : CsvSource) (P : List String) (batches : List (List Row))
    (batch : List Row) (row : Row) : Prop where
  wide : s.schema.width < row.length →
    batch ∈ batches.tail ∧ row.length ≤ (batch.headD []).length
  short : ∀ fk ∈ s.schema.fields.zipIdx, row.length ≤ fk.2 → fk.1.nullable = true ∨
    asks P fk.1.name = false ∧ (fk.1.type = .utf8 ∨ fk.1.type = .float64)

@[simp] theorem length_fitted (width : Nat) (row : Row) : (fitted width row).length = width := by
  rw [fitted, List.length_append, List.length_take, List.length_replicate]
  omega

private theorem present?_fitted {width k : Nat} (hk : k < width) (row : Row) :
    (fitted width row)[k]?.bind present? = row[k]?.bind present? := by
  by_cases hr : k < row.length
  · have hl : k < (row.take width).length := by
      rw [List.length_take]
      omega
    rw [fitted, List.getElem?_append_left hl, List.getElem?_take_of_lt hk]
  · have hl : (row.take width).length ≤ k := by
      rw [List.length_take]
      omega
    have hlt : k - (row.take width).length < width - row.length := by
      rw [List.length_take]
      omega
    rw [fitted, List.getElem?_append_right hl, List.getElem?_replicate, if_pos hlt,
      List.getElem?_eq_none (by omega)]
    rfl

theorem cellsAt_fitted {width k : Nat} (hk : k < width) (rows : List Row) :
    cellsAt (rows.map (fitted width)) k = cellsAt rows k := by
  rw [cellsAt, cellsAt, List.map_map]
  exact List.map_congr_left fun row _ => present?_fitted hk row

variable {s : CsvSource} {P : List String} {batch : List Row}

private theorem snd_lt_width {fk : Field × Nat} (h : fk ∈ s.schema.fields.zipIdx) :
    fk.2 < s.schema.width := by
  have hl := List.snd_lt_of_mem_zipIdx h
  simpa [Schema.width] using hl

theorem admitsBatch_fitted :
    s.AdmitsBatch P (batch.map (fitted s.schema.width)) ↔ s.AdmitsBatch P batch := by
  apply forall₂_congr
  intro fk hfk
  rw [cellsAt_fitted (snd_lt_width hfk)]

theorem readBatch_fitted (g : Grammar) (expected : Schema) :
    readBatch g s.schema expected s.schema.width (batch.map (fitted s.schema.width)) =
      readBatch g s.schema expected s.schema.width batch := by
  have hc : readColumns g s.schema s.schema.width (batch.map (fitted s.schema.width)) =
      readColumns g s.schema s.schema.width batch := by
    have htake : s.schema.fields.take s.schema.width = s.schema.fields := List.take_length
    rw [readColumns, readColumns, htake]
    apply mapM_congr_of_mem
    intro fk hfk
    change readField g (batch.map (fitted s.schema.width)) fk.1 fk.2 = readField g batch fk.1 fk.2
    unfold readField
    rw [cellsAt_fitted (snd_lt_width hfk)]
  rw [readBatch, readBatch, hc]

variable {files : String → Except SourceFault ByteArray} {fs : List Frame}
  {batches : List (List Row)}

/-- A record wider than the schema has a batch before it, and one as wide in its own. -/
private theorem wide_of_scan (h : (s.scan files P).result = .ok fs)
    (hb : s.batches? (files s.path) = some batches) (hm : batch ∈ batches) {row : Row}
    (hrow : row ∈ batch) (hw : s.schema.width < row.length) :
    batch ∈ batches.tail ∧ row.length ≤ (batch.headD []).length := by
  obtain ⟨-, batches', hb', hfirst, -⟩ := scan_eq_ok_iff_batches.1 h
  cases hb.symm.trans hb'
  cases batches with
  | nil => cases hm
  | cons head rest =>
    have hne := (bounded_of_batches? hb head List.mem_cons_self).ne_nil
    obtain ⟨first, others, rfl⟩ := List.exists_cons_of_ne_nil hne
    have hwidth := hfirst first rfl
    have hle := (bounded_of_batches? hb batch hm).width row hrow
    rw [fileWidth_of_batches? hb first rfl, hwidth] at hle
    have hbehind : row.length ≤ (batch.headD []).length := by omega
    refine ⟨?_, hbehind⟩
    rcases List.mem_cons.1 hm with rfl | hm
    · rw [List.headD_cons, hwidth] at hbehind
      omega
    · exact hm

private theorem AdmitsBatch.of_short (h : s.AdmitsBatch P batch) {row : Row} (hrow : row ∈ batch)
    {fk : Field × Nat} (hfk : fk ∈ s.schema.fields.zipIdx) (hshort : row.length ≤ fk.2) :
    fk.1.nullable = true ∨
      asks P fk.1.name = false ∧ (fk.1.type = .utf8 ∨ fk.1.type = .float64) := by
  obtain ⟨cells, hcells, hm⟩ := h fk hfk
  obtain ⟨storage, hread⟩ := Grammar.cells?_eq_some_iff.1 hcells
  have hnone : none ∈ cellsAt batch fk.2 := by
    refine List.mem_map.2 ⟨row, hrow, ?_⟩
    rw [List.getElem?_eq_none hshort]
    rfl
  have hmissing : .missing ∈ cells := (Grammar.readColumn_fits hread).missing hnone
  cases hnull : fk.1.nullable with
  | true => exact .inl rfl
  | false =>
    rw [hnull] at hread
    have hcomplete : ¬ (fk.1.type = .int64 ∨ fk.1.type = .boolean) := fun ht =>
      not_mem_of_complete (Grammar.complete_of_readColumn ht hread) hnone
    refine .inr ⟨?_, ?_⟩
    · cases ha : asks P fk.1.name with
      | false => rfl
      | true => exact absurd hmissing (hm ha hnull)
    · cases ht : fk.1.type <;> simp [ht] at hcomplete ⊢

def integerPairs (nullable : Bool) : CsvSource :=
  ⟨⟨[⟨"a", .int64, false⟩, ⟨"b", .int64, nullable⟩]⟩, "n.csv", ⟨1, false, ",", by decide⟩⟩

private theorem scan_third_cell :
    ((integerPairs false).scan (everywhere "1,2\n3,4,5\n") []).result =
      .ok [⟨[⟨.text "a", "int64", [.integer 1]⟩, ⟨.text "b", "int64", [.integer 2]⟩]⟩,
        ⟨[⟨.text "a", "int64", [.integer 3]⟩, ⟨.text "b", "int64", [.integer 4]⟩]⟩] := by
  decide +kernel

private theorem batches?_third_cell :
    (integerPairs false).batches? (everywhere "1,2\n3,4,5\n" "n.csv") =
      some [[["1", "2"]], [["3", "4", "5"]]] := by decide +kernel

end QueryPlan.CsvSource
