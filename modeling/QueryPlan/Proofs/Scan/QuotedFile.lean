import QueryPlan.Proofs.Csv.QuotedText
import QueryPlan.Proofs.Csv.Written
import QueryPlan.Proofs.Scan.Acceptance
import QueryPlan.Proofs.Scan.Conformance
/-!
# Quoted files

Rows that a schema allows are written to a file with all cells in quotes. A scan of that file gives
them back in groups, cell by cell, when the delimiter is an ASCII character. Where the grammar is
strict the rows that look blank are lost, which are those of a single cell without a visible text; the
others come back if no cell is too long and the first one does not start with a mark.
-/
namespace QueryPlan

/-- A row has a cell for every field, and each field allows its cell. -/
def Schema.Allows (schema : Schema) (row : List Cell) : Prop :=
  List.Forall₂ Field.Allows schema.fields row

instance (schema : Schema) : DecidablePred schema.Allows :=
  fun row => inferInstanceAs (Decidable (List.Forall₂ _ _ row))

namespace Schema
variable {schema : Schema} {row : List Cell}

theorem Allows.exists_cell (h : schema.Allows row) {fk : Field × Nat}
    (hfk : fk ∈ schema.fields.zipIdx) : ∃ c, row[fk.2]? = some c ∧ fk.1.Allows c := by
  have hget := List.mem_zipIdx_iff_getElem?.1 hfk
  obtain ⟨hlt, hfield⟩ := List.getElem?_eq_some_iff.1 hget
  have hrow : fk.2 < row.length := h.length_eq ▸ hlt
  have hcell := List.Forall₂.get h hlt hrow
  rw [List.get_eq_getElem, List.get_eq_getElem, hfield] at hcell
  exact ⟨row[fk.2], List.getElem?_eq_getElem hrow, hcell⟩

end Schema

namespace Csv
variable {schema : Schema} {rows : List (List Cell)}

def writtenRow (row : List Cell) : Row :=
  row.map Cell.written

theorem writable_writtenRow (hw : 0 < schema.width) {row : List Cell} (h : schema.Allows row) :
    Writable (writtenRow row) := by
  constructor
  · intro hnil
    have hrow : row = [] := List.map_eq_nil_iff.1 hnil
    have hlength := h.length_eq
    rw [hrow, List.length_nil] at hlength
    rw [Schema.width] at hw
    omega
  · intro t ht
    obtain ⟨c, hc, heq⟩ := List.mem_map.1 ht
    obtain ⟨f, _, hallows⟩ := exists_of_mem_right h hc
    rw [← heq]
    exact not_mem_written hallows

theorem length_writtenRow {row : List Cell} (h : schema.Allows row) :
    (writtenRow row).length = schema.width := by
  rw [writtenRow, List.length_map, ← h.length_eq, Schema.width]

def columnAt (rows : List (List Cell)) (k : Nat) : List Cell :=
  rows.map (·.getD k .missing)

section Column
variable {fk : Field × Nat} (h : ∀ row ∈ rows, schema.Allows row)
  (hfk : fk ∈ schema.fields.zipIdx)

include h hfk

theorem forall₂_columnAt :
    List.Forall₂ (fun row c => row[fk.2]? = some c) rows (columnAt rows fk.2) := by
  rw [columnAt, List.forall₂_map_right_iff, List.forall₂_same]
  intro row hrow
  obtain ⟨c, hc, _⟩ := (h row hrow).exists_cell hfk
  rw [List.getD_eq_getElem?_getD, hc, Option.getD_some]

theorem allows_columnAt : ∀ c ∈ columnAt rows fk.2, fk.1.Allows c := by
  intro c hc
  obtain ⟨row, hrow, hget⟩ := exists_of_mem_right (forall₂_columnAt h hfk) hc
  obtain ⟨c', hc', hallows⟩ := (h row hrow).exists_cell hfk
  rw [hget] at hc'
  rwa [Option.some.inj hc']

theorem cellsAt_written : cellsAt (rows.map writtenRow) fk.2 = writtenTexts (columnAt rows fk.2) := by
  rw [cellsAt, writtenTexts, columnAt, List.map_map, List.map_map]
  apply List.map_congr_left
  intro row hrow
  obtain ⟨c, hc, _⟩ := (h row hrow).exists_cell hfk
  simp [writtenRow, hc]

theorem cells?_columnAt (g : Grammar) (hf : fk.1.type ≠ .float64) (hne : rows ≠ []) :
    g.cells? fk.1 (cellsAt (rows.map writtenRow) fk.2) = some (columnAt rows fk.2) := by
  rw [cellsAt_written h hfk]
  exact g.cells?_written hf (by simpa [columnAt] using hne) (allows_columnAt h hfk)

end Column

theorem eq_of_forall₂_zipIdx {fields : List Field} {row cells : List Cell}
    (hl : row.length = fields.length)
    (h : List.Forall₂ (fun fk c => row[fk.2]? = some c) fields.zipIdx cells) : row = cells := by
  have hlength : fields.length = cells.length := by simpa using h.length_eq
  apply List.ext_getElem?
  intro i
  by_cases hi : i < fields.length
  · have hcells : i < cells.length := hlength ▸ hi
    have hget := List.Forall₂.get h (by simpa using hi) hcells
    simp only [List.get_eq_getElem, List.getElem_zipIdx, Nat.zero_add] at hget
    rw [hget, List.getElem?_eq_getElem hcells]
  · rw [List.getElem?_eq_none (by omega), List.getElem?_eq_none (by omega)]

theorem tableOf_columnAt (hw : 0 < schema.width) (h : ∀ row ∈ rows, schema.Allows row) :
    tableOf (schema.fields.zipIdx.map fun fk => columnAt rows fk.2) = rows := by
  have hne : schema.fields.zipIdx.map (fun fk => columnAt rows fk.2) ≠ [] := by
    simpa using List.length_pos_iff.1 hw
  have hheight : ∀ column ∈ schema.fields.zipIdx.map (fun fk => columnAt rows fk.2),
      column.length = rows.length := by
    intro column hcolumn
    obtain ⟨fk, _, heq⟩ := List.mem_map.1 hcolumn
    rw [← heq, columnAt, List.length_map]
  rw [tableOf_eq_rowsOf hne hheight]
  have hcolumns : List.Forall₂ (fun fk column =>
      List.Forall₂ (fun row c => row[fk.2]? = some c) rows column) schema.fields.zipIdx
      (schema.fields.zipIdx.map fun fk => columnAt rows fk.2) := by
    rw [List.forall₂_map_right_iff, List.forall₂_same]
    exact fun fk hfk => forall₂_columnAt h hfk
  have hcells := forall₂_rowsOf hcolumns
  have heq := ((List.forall₂_and_left rows _).2 ⟨h, hcells⟩).imp fun row cells hrow =>
    eq_of_forall₂_zipIdx hrow.1.length_eq.symm hrow.2
  rw [List.forall₂_eq_eq_eq] at heq
  exact heq.symm

def quotedFile (delimiter : Char) (rows : List (List Cell)) : String :=
  String.ofList (quotedText delimiter (rows.map writtenRow))

theorem exists_of_flatten_eq_map {α β : Type} {f : α → β} {xss : List (List β)} {ys : List α}
    (h : xss.flatten = ys.map f) : ∃ yss : List (List α), xss = yss.map (List.map f) ∧
      yss.flatten = ys := by
  induction xss generalizing ys with
  | nil => exact ⟨[], rfl, (List.map_eq_nil_iff.1 h.symm).symm⟩
  | cons xs xss ih =>
    obtain ⟨first, rest, hys, hfirst, hrest⟩ := List.map_eq_append_iff.1 h.symm
    obtain ⟨yss, hxss, hflatten⟩ := ih hrest.symm
    exact ⟨first :: yss, by rw [List.map_cons, hfirst, hxss], by rw [List.flatten_cons, hflatten, hys]⟩

end Csv

namespace CsvSource
open Csv

/-- A source that quoted files can be read with: its columns have distinct names and hold no binary64
numbers, and there is no header. -/
structure ReadsQuoted (s : CsvSource) (d : Char) : Prop where
  width : 0 < s.schema.width
  nodup : s.schema.names.Nodup
  types : ∀ f ∈ s.schema.fields, f.type ≠ .float64
  header : s.config.hasHeader = false
  delimiter : s.config.delimiter = String.singleton d
  separates : Separates d

variable {s : CsvSource} {d : Char} {rows : List (List Cell)}

/-- The batches of a quoted file are the rows that are kept, in parts. -/
theorem ReadsQuoted.exists_batches (h : s.ReadsQuoted d)
    (hrows : ∀ row ∈ rows, s.schema.Allows row)
    (hfit : 128 ≤ d.toNat → FitStrict (rows.map writtenRow)) : ∃ parts : List (List (List Cell)),
      s.batches? (.ok (quotedFile d rows).toUTF8) = some (parts.map (List.map writtenRow)) ∧
      parts.flatten = rows.filter (fun row => keeps d (writtenRow row)) ∧
      (rows.filter (fun row => keeps d (writtenRow row)) = rows →
        parts = groups s.config.batchSize rows) := by
  have hwritable : ∀ row ∈ rows.map writtenRow, Writable row := by
    intro row hrow
    obtain ⟨cells, hcells, heq⟩ := List.mem_map.1 hrow
    exact heq ▸ writable_writtenRow h.width (hrows cells hcells)
  have hwidth : ∀ row ∈ rows.map writtenRow, row.length = s.schema.width := by
    intro row hrow
    obtain ⟨cells, hcells, heq⟩ := List.mem_map.1 hrow
    rw [← heq, length_writtenRow (hrows cells hcells)]
  have ht : s.text? (.ok (quotedFile d rows).toUTF8) = some (d, quotedText d (rows.map writtenRow)) := by
    rw [text?_eq_some_iff]
    refine ⟨h.delimiter, h.separates.feed, _, rfl, ?_⟩
    rw [decode_toUTF8, quotedFile, String.toList_ofList, textOf_quotedText _ hwritable]
  obtain ⟨batches, hbatches, hflatten, hgroups⟩ :=
    batchesOf_quotedText h.separates h.header hwritable hfit hwidth (Nat.le_refl _)
  have hb : s.batches? (.ok (quotedFile d rows).toUTF8) = some batches :=
    batches?_eq_some_iff.2 ⟨d, _, ht, hbatches⟩
  have hkept : (rows.map writtenRow).filter (keeps d) =
      (rows.filter (fun row => keeps d (writtenRow row))).map writtenRow := List.filter_map
  rw [hkept] at hflatten hgroups
  by_cases hall : rows.filter (fun row => keeps d (writtenRow row)) = rows
  · refine ⟨groups s.config.batchSize rows, ?_, ?_, fun _ => rfl⟩
    · rw [hb, hgroups (by rw [hall]), groups_map s.config.batchSize_pos]
    · rw [hall, flatten_groups s.config.batchSize_pos]
  · obtain ⟨parts, hparts, hflat⟩ := exists_of_flatten_eq_map hflatten
    exact ⟨parts, by rw [hb, hparts], hflat, fun h => absurd h hall⟩

variable {part : List (List Cell)}

theorem ReadsQuoted.cells?_eq (h : s.ReadsQuoted d) (hrows : ∀ row ∈ part, s.schema.Allows row)
    (hne : part ≠ []) {fk : Field × Nat} (hfk : fk ∈ s.schema.fields.zipIdx) :
    s.grammar.cells? fk.1 (cellsAt (part.map writtenRow) fk.2) = some (columnAt part fk.2) :=
  cells?_columnAt hrows hfk _ (h.types _ (List.fst_mem_of_mem_zipIdx hfk)) hne

theorem ReadsQuoted.admitsBatch (h : s.ReadsQuoted d) (hrows : ∀ row ∈ part, s.schema.Allows row)
    (hne : part ≠ []) : s.AdmitsBatch [] (part.map writtenRow) := by
  intro fk hfk
  refine ⟨_, h.cells?_eq hrows hne hfk, fun _ hrequired hmissing => ?_⟩
  have hnullable : fk.1.nullable = true := allows_columnAt hrows hfk _ hmissing
  rw [hrequired] at hnullable
  cases hnullable

theorem ReadsQuoted.rows_of_readBatch (h : s.ReadsQuoted d)
    (hrows : ∀ row ∈ part, s.schema.Allows row) (hne : part ≠ []) (hr : s.Resolves []) {f : Frame}
    (hf : readBatch s.grammar s.schema (s.expected []) s.schema.width (part.map writtenRow) =
      .ok f) : f.rows = part := by
  have hkept : s.kept [] = s.schema.fields.zipIdx := List.filter_eq_self.2 fun _ _ => rfl
  have hcolumns : f.columns.map (·.cells) =
      s.schema.fields.zipIdx.map fun fk => columnAt part fk.2 := by
    rw [← (hr.columns_of_readBatch hf).2, hkept]
    apply List.map_congr_left
    intro fk hfk
    rw [h.cells?_eq hrows hne hfk, Option.getD_some]
  rw [f.rows_eq_tableOf, hcolumns, tableOf_columnAt h.width hrows]

variable {files : String → Except SourceFault ByteArray} {parts : List (List (List Cell))}

theorem ReadsQuoted.exists_scan (h : s.ReadsQuoted d)
    (hbatches : s.batches? (files s.path) = some (parts.map (List.map writtenRow)))
    (hrows : ∀ row ∈ parts.flatten, s.schema.Allows row) : ∃ fs,
      (s.scan files []).result = .ok fs ∧
      (∀ f ∈ fs, f.labels = s.schema.names.map Label.text) ∧ fs.map Frame.rows = parts := by
  have hpart : ∀ part ∈ parts, part ≠ [] ∧ ∀ row ∈ part, s.schema.Allows row := by
    intro part hm
    have hbounded := bounded_of_batches? hbatches _ (List.mem_map_of_mem hm)
    exact ⟨by simpa using hbounded.ne_nil,
      fun row hrow => hrows row (List.mem_flatten.2 ⟨part, hm, hrow⟩)⟩
  have hfirst : ∀ row ∈ (parts.map (List.map writtenRow)).flatten.head?,
      row.length = s.schema.width := by
    intro row hrow
    rw [← List.map_flatten] at hrow
    obtain ⟨cells, hcells, heq⟩ := List.mem_map.1 (List.mem_of_mem_head? hrow)
    rw [← heq, length_writtenRow (hrows cells hcells)]
  have hadmits : ∀ batch ∈ parts.map (List.map writtenRow), s.AdmitsBatch [] batch := by
    intro batch hbatch
    obtain ⟨part, hm, heq⟩ := List.mem_map.1 hbatch
    exact heq ▸ h.admitsBatch (hpart part hm).2 (hpart part hm).1
  have hr : s.Resolves [] := resolves_of_nodup h.nodup (by simp)
  obtain ⟨fs, hscan⟩ := (exists_scan_iff_batches h.nodup).2 ⟨hr, _, hbatches, hfirst, hadmits⟩
  obtain ⟨_, batches, hbatches', _, hframes⟩ := scan_eq_ok_iff_batches.1 hscan
  cases hbatches.symm.trans hbatches'
  rw [List.forall₂_map_left_iff] at hframes
  refine ⟨fs, hscan, fun f hf => ?_, ?_⟩
  · obtain ⟨part, _, hread⟩ := exists_of_mem_right hframes hf
    have hnames : s.projected [] = s.schema.names := List.filter_eq_self.2 fun _ _ => rfl
    rw [(hr.columns_of_readBatch hread).1, hnames]
  · have heq : List.Forall₂ (· = ·) (fs.map Frame.rows) parts := by
      rw [List.forall₂_map_left_iff]
      apply List.Forall₂.flip
      apply ((List.forall₂_and_left parts fs).2 ⟨hpart, hframes⟩).imp
      rintro part f ⟨⟨hne, hallows⟩, hf⟩
      exact h.rows_of_readBatch hallows hne hr hf
    rwa [List.forall₂_eq_eq_eq] at heq

/-- A scan of a quoted file gives back the rows that are kept, and all of them in groups when none is
dropped. With a delimiter outside ASCII the rows must fit a strict text. -/
theorem scan_quoted (h : s.ReadsQuoted d) (hrows : ∀ row ∈ rows, s.schema.Allows row)
    (hfit : 128 ≤ d.toNat → FitStrict (rows.map writtenRow))
    (hfile : files s.path = .ok (quotedFile d rows).toUTF8) : ∃ fs,
      (s.scan files []).result = .ok fs ∧
      (∀ f ∈ fs, f.labels = s.schema.names.map Label.text) ∧
      fs.flatMap Frame.rows = rows.filter (fun row => keeps d (writtenRow row)) ∧
      (fs.map Frame.rows = groups s.config.batchSize rows ↔
        ∀ row ∈ rows, keeps d (writtenRow row) = true) := by
  obtain ⟨parts, hbatches, hflatten, hgroups⟩ := h.exists_batches hrows hfit
  have hkept : ∀ row ∈ parts.flatten, s.schema.Allows row := by
    rw [hflatten]
    exact fun row hrow => hrows row (List.mem_of_mem_filter hrow)
  obtain ⟨fs, hscan, hlabels, hparts⟩ := h.exists_scan (hfile ▸ hbatches) hkept
  refine ⟨fs, hscan, hlabels, by rw [List.flatMap_def, hparts, hflatten], ?_⟩
  rw [hparts]
  constructor
  · intro hall row hrow
    have hself : rows.filter (fun row => keeps d (writtenRow row)) = rows := by
      rw [← hflatten, hall, flatten_groups s.config.batchSize_pos]
    exact List.filter_eq_self.1 hself row hrow
  · intro hall
    exact hgroups (List.filter_eq_self.2 hall)

def RestoresQuoted (s : CsvSource) (d : Char) (rows : List (List Cell)) : Prop :=
  ∃ fs, (s.scan (everywhere (quotedFile d rows)) []).result = .ok fs ∧
    fs.map Frame.rows = groups s.config.batchSize rows

private def mixed : CsvSource :=
  ⟨⟨[⟨"a", .utf8, true⟩, ⟨"n", .int64, false⟩, ⟨"b", .boolean, false⟩]⟩, "n.csv",
    ⟨2, false, ";", Nat.two_pos⟩⟩

private def samples : List (List Cell) :=
  [[.text "x;\"y\"\r\n", .integer (-9223372036854775808), .boolean true],
   [.missing, .integer 7, .boolean false], [.text " ", .integer 0, .boolean true]]

/-- Texts with delimiters, quotes and line ends, the least integer, and a missing cell. -/
theorem quoted_samples_restored :
    mixed.ReadsQuoted ';' ∧ (∀ row ∈ samples, mixed.schema.Allows row) ∧
      mixed.RestoresQuoted ';' samples := by
  have hreads : mixed.ReadsQuoted ';' :=
    ⟨by decide, by decide, by decide, rfl, rfl, ⟨by decide, by decide, by decide, by decide⟩⟩
  have hallows : ∀ row ∈ samples, mixed.schema.Allows row := by decide
  have hfile : everywhere (quotedFile ';' samples) mixed.path =
      .ok (quotedFile ';' samples).toUTF8 := rfl
  obtain ⟨fs, hscan, _, _, hgroups⟩ := scan_quoted hreads hallows (by simp) hfile
  exact ⟨hreads, hallows, fs, hscan, hgroups.2 (by simp [keeps])⟩

private def accented (nullable : Bool) : CsvSource :=
  ⟨⟨[⟨"a", .utf8, nullable⟩]⟩, "n.csv", { Config.standard with delimiter := "é" }⟩

private theorem not_restoresQuoted {fs : List Frame}
    (hscan : (s.scan (everywhere (quotedFile d rows)) []).result = .ok fs)
    (hne : fs.map Frame.rows ≠ groups s.config.batchSize rows) : ¬ s.RestoresQuoted d rows := by
  rintro ⟨fs', hscan', hrows⟩
  cases hscan.symm.trans hscan'
  exact hne hrows

/-- With a delimiter outside ASCII a row is lost when its only cell is missing or a blank. -/
theorem blank_rows_not_restored :
    ((accented true).ReadsQuoted 'é' ∧
      (∀ row ∈ [[.text "x"], [.missing]], (accented true).schema.Allows row) ∧
      ¬ (accented true).RestoresQuoted 'é' [[.text "x"], [.missing]]) ∧
    (accented false).ReadsQuoted 'é' ∧
      (∀ row ∈ [[.text "x"], [.text " "]], (accented false).schema.Allows row) ∧
      ¬ (accented false).RestoresQuoted 'é' [[.text "x"], [.text " "]] := by
  have hreads : ∀ nullable, (accented nullable).ReadsQuoted 'é' := fun nullable =>
    ⟨Nat.one_pos, by cases nullable <;> decide, by cases nullable <;> decide, rfl, rfl,
      ⟨by decide, by decide, by decide, by decide⟩⟩
  have hmissing : ((accented true).scan (everywhere (quotedFile 'é' [[.text "x"], [.missing]]))
      []).result = .ok [⟨[⟨.text "a", "string", [.text "x"]⟩]⟩] := by decide +kernel
  have hblank : ((accented false).scan (everywhere (quotedFile 'é' [[.text "x"], [.text " "]]))
      []).result = .ok [⟨[⟨.text "a", "string", [.text "x"]⟩]⟩] := by decide +kernel
  exact ⟨⟨hreads true, by decide, not_restoresQuoted hmissing (by decide)⟩,
    hreads false, by decide, not_restoresQuoted hblank (by decide)⟩

end CsvSource
end QueryPlan
