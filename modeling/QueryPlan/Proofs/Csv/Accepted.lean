import QueryPlan.Proofs.Csv.Groupwise
import QueryPlan.Proofs.Csv.Reading
/-!
# Batches that are accepted

The columns of a batch convert when each of them does by itself. The cells of the columns that are
kept and the cells that they lack are then told by field, and not by column.
-/
namespace QueryPlan.Csv
variable {g : Grammar} {schema : Schema} {rows : List Row} {columns : List Column}

theorem columns_of_readColumns (h : readColumns g schema schema.width rows = .ok columns) :
    List.Forall₂ (fun fk c => c.label = .text fk.1.name ∧
      g.cells? fk.1 (cellsAt rows fk.2) = some c.cells) schema.fields.zipIdx columns := by
  apply (readColumns_eq_ok_iff.1 h).imp
  intro fk c hc
  obtain ⟨stored, hs, rfl⟩ := readField_eq_ok_iff.1 hc
  exact ⟨rfl, Grammar.cells?_eq_some_iff.2 ⟨stored.1, hs⟩⟩

theorem exists_readColumns_iff :
    (∃ columns, readColumns g schema schema.width rows = .ok columns) ↔
      ∀ fk ∈ schema.fields.zipIdx, ∃ cells, g.cells? fk.1 (cellsAt rows fk.2) = some cells := by
  constructor
  · rintro ⟨columns, h⟩ fk hfk
    obtain ⟨c, -, -, hcells⟩ := exists_of_mem_left (columns_of_readColumns h) hfk
    exact ⟨c.cells, hcells⟩
  · intro h
    cases hc : readColumns g schema schema.width rows with
    | ok columns => exact ⟨columns, rfl⟩
    | error e =>
      rw [readColumns, Schema.width, List.take_length, mapM_eq_error_iff] at hc
      obtain ⟨before, fk, after, hs, -, hf⟩ := hc
      obtain ⟨cells, hcells⟩ := h fk (by simp [hs])
      obtain ⟨storage, hok⟩ := Grammar.cells?_eq_some_iff.1 hcells
      rw [readField_eq_error_iff.1 hf] at hok
      cases hok

theorem hasMissing_iff {name : String} : Frame.hasMissing ⟨columns⟩ name = true ↔
    ∃ c ∈ columns, c.label = .text name ∧ .missing ∈ c.cells := by
  rw [Frame.hasMissing, List.any_eq_true]
  simp [Column.hasMissing]

theorem hasMissing_of_readColumns (hn : schema.names.Nodup)
    (h : readColumns g schema schema.width rows = .ok columns) {fk : Field × Nat}
    (hfk : fk ∈ schema.fields.zipIdx) : Frame.hasMissing ⟨columns⟩ fk.1.name = true ↔
      ∃ cells, g.cells? fk.1 (cellsAt rows fk.2) = some cells ∧ .missing ∈ cells := by
  have hc := columns_of_readColumns h
  obtain ⟨i, hi, rfl⟩ := List.mem_iff_getElem.1 hfk
  have hci : i < columns.length := hc.length_eq ▸ hi
  obtain ⟨hl, hcells⟩ := List.Forall₂.get hc hi hci
  rw [hasMissing_iff]
  constructor
  · rintro ⟨c, hm, hlc, hmissing⟩
    obtain ⟨j, hj, rfl⟩ := List.mem_iff_getElem.1 hm
    have hjz : j < schema.fields.zipIdx.length := hc.length_eq ▸ hj
    obtain ⟨hlj, -⟩ := List.Forall₂.get hc hjz hj
    have hi' : i < schema.names.length := by simpa [Schema.names] using hi
    have hj' : j < schema.names.length := by simpa [Schema.names] using hjz
    have hname : schema.names[i] = schema.names[j] := by
      have he := Label.text.inj (hlc.symm.trans hlj)
      simpa [Schema.names] using he
    obtain rfl := (List.Nodup.getElem_inj_iff hn).1 hname
    exact ⟨_, hcells, hmissing⟩
  · rintro ⟨cells, hs, hmissing⟩
    rw [List.get_eq_getElem] at hcells
    cases hs.symm.trans hcells
    exact ⟨_, List.getElem_mem hci, hl, hmissing⟩

end QueryPlan.Csv
