import Mathlib.Data.List.Nodup
import QueryPlan.Proofs.Csv.Conversion
import QueryPlan.Proofs.Inference
/-!
# Conformance of converted columns

Converted columns carry the names and the types of their fields, so the check of a batch can only
find a missing cell. A batch is therefore its columns, or the first of three failures: a column that
does not convert, a wrong number of columns, a required column that lacks a cell.
-/
namespace QueryPlan

structure Column.Holds (f : Field) (c : Column) : Prop where
  label : c.label = .text f.name
  type : DataType.ofStorageName c.storage = .ok f.type

namespace Frame

theorem labels_of_holds {fields : List Field} {f : Frame}
    (h : List.Forall₂ Column.Holds fields f.columns) :
    f.labels = (fields.map (·.name)).map .text := by
  rw [List.map_map]
  exact (map_eq_map_of_forall₂ h fun _ _ hc => hc.label.symm).symm

theorem nodup_labels_of_names {f : Frame} {names : List String} (hl : f.labels = names.map .text)
    (hn : names.Nodup) : f.labels.Nodup := by
  rw [hl]
  exact hn.map fun _ _ h => Label.text.inj h

def known (g : Field) (c : Column) : Field :=
  ⟨g.name, g.type, c.hasMissing⟩

theorem shows_known {fields : List Field} {columns : List Column}
    (h : List.Forall₂ Column.Holds fields columns) :
    List.Forall₂ Column.Shows columns (List.zipWith known fields columns) := by
  induction h with
  | nil => exact .nil
  | cons hc _ ih => exact .cons ⟨by rw [hc.label]; rfl, hc.type, List.contains_iff_mem⟩ ih

end Frame

theorem Schema.ofFrame_of_holds {fields : List Field} {f : Frame}
    (h : List.Forall₂ Column.Holds fields f.columns) (hn : (fields.map (·.name)).Nodup) :
    Schema.ofFrame f = .ok ⟨List.zipWith Frame.known fields f.columns⟩ :=
  ofFrame_eq_ok_iff.2 ⟨Frame.nodup_labels_of_names (Frame.labels_of_holds h) hn, Frame.shows_known h⟩

theorem types_known {fields : List Field} {columns : List Column}
    (h : List.Forall₂ Column.Holds fields columns) :
    (List.zipWith Frame.known fields columns).map (·.type) = fields.map (·.type) := by
  induction h with
  | nil => rfl
  | cons _ _ ih => rw [List.zipWith_cons_cons, List.map_cons, List.map_cons, ih, Frame.known]

namespace Csv

/-- Converted columns are refused only for a cell they lack. -/
theorem checkBatch_of_holds {frame : Frame} {expected : Schema}
    (h : List.Forall₂ Column.Holds expected.fields frame.columns) (hn : expected.names.Nodup) :
    checkBatch frame expected =
      match missingField? frame expected with
      | some f => .error (.source (.missingValue f.name))
      | none => .ok () := by
  unfold checkBatch
  cases missingField? frame expected with
  | some f => rfl
  | none =>
    dsimp only
    rw [Schema.ofFrame_of_holds h hn]
    exact if_pos (types_known h)

end Csv
end QueryPlan
