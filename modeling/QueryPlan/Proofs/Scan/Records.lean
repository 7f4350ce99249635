import QueryPlan.Proofs.Csv.Missing
import QueryPlan.Proofs.Csv.StrictRecords
import QueryPlan.Proofs.Scan.Acceptance
import QueryPlan.Proofs.Scan.Conformance
/-!
# Records of a scan

The frames of a scan show the batches that its file is read in, row by row and cell by cell. They
render the records of the file, as many in each frame as a batch may have, when the file is in step:
when its text has no null character and is steady, or, where the grammar is strict, when it does not
start with a mark, blank rows stand aside and no record is blank.
-/
namespace QueryPlan
namespace Csv

/-- What is promised of a cell: it is missing just when its text is, and a text is kept. -/
structure Keeps (type : DataType) (text : Option String) (c : Cell) : Prop where
  missing : c = .missing ↔ text = none
  text : type = .utf8 → ∀ t, text = some t → c = .text t

/-- A lenient text is in step when no cell is cut off, no row is read again or lost, and its header
ends where any other line would. -/
structure LenientInStep (d : Char) (hasHeader : Bool) (text : List Char) : Prop where
  null : '\x00' ∉ text
  header : hasHeader = true → afterHeaderLine d text = afterLine d .cellStart text
  steady : isSteadyText d hasHeader text = true

/-- A strict text is in step when no mark is taken off its first row, its blank rows stand aside and
none of them is a record. -/
structure StrictInStep (d : Char) (hasHeader : Bool) (text : List Char) : Prop where
  null : '\x00' ∉ text
  mark : hasHeader = false → Unmarked (strictLines d .rowStart text)
  aside : ∀ rows : List Row, strictRowsOf d hasHeader text = rows.map .ok → BlanksAside rows
  filled : ∀ row, some row ∈ plainRecords d hasHeader text → isBlankRow row = false

def InStep (d : Char) (hasHeader : Bool) (text : List Char) : Prop :=
  match Grammar.ofDelimiter d with
  | .lenient => LenientInStep d hasHeader text
  | .strict => StrictInStep d hasHeader text

theorem LenientInStep.recordsOf_eq {d : Char} {hasHeader : Bool} {text : List Char}
    (h : LenientInStep d hasHeader text) :
    recordsOf d hasHeader text = plainRecords d hasHeader text := by
  rw [recordsOf, plainRecords]
  cases hasHeader with
  | false => rfl
  | true => rw [if_pos rfl, if_pos rfl, h.header rfl]

end Csv

namespace CsvSource
open Csv

/-- Cells show a row of the file when each of them tells of the text at its field's place, by some
rule. A text that is not there or marks a missing cell is none. -/
def ShowsRow (s : CsvSource) (P : List String) (rule : DataType → Option String → Cell → Prop)
    (row : Row) (cells : List Cell) : Prop :=
  List.Forall₂ (fun fk c => rule fk.1.type (row[fk.2]?.bind present?) c) (s.kept P) cells

structure ShowsBatch (s : CsvSource) (P : List String)
    (rule : DataType → Option String → Cell → Prop) (batch : List Row) (f : Frame) : Prop where
  labels : f.labels = (s.projected P).map Label.text
  height : f.height = batch.length
  rows : List.Forall₂ (s.ShowsRow P rule) batch f.rows

/-- Frames render rows when there are as many as it takes, each has the rows that fit, and its rows
show the rows that it takes up, one after the other. -/
structure Renders (s : CsvSource) (P : List String)
    (rule : DataType → Option String → Cell → Prop) (rows : List Row) (fs : List Frame) : Prop where
  empty : fs = [] ↔ rows = []
  length : fs.length = (rows.length + s.config.batchSize - 1) / s.config.batchSize
  labels : ∀ f ∈ fs, f.labels = (s.projected P).map Label.text
  height : ∀ i f, fs[i]? = some f →
    f.height = min s.config.batchSize (rows.length - i * s.config.batchSize)
  row : ∀ i f, fs[i]? = some f → ∀ j < f.height, ∃ row cells,
    rows[i * s.config.batchSize + j]? = some row ∧ f.rows[j]? = some cells ∧
      s.ShowsRow P rule row cells

/-- Frames keep the records of a file when they render them all and every cell keeps its text. -/
def KeepsRecords (s : CsvSource) (files : String → Except SourceFault ByteArray)
    (P : List String) : Prop :=
  ∀ fs, (s.scan files P).result = .ok fs → ∀ d text, s.text? (files s.path) = some (d, text) →
    ∃ rows, plainRecords d s.config.hasHeader text = rows.map some ∧ s.Renders P Keeps rows fs

variable {s : CsvSource} {P : List String} {rule : DataType → Option String → Cell → Prop}

theorem renders_of_groups {rows : List Row} {fs : List Frame}
    (h : List.Forall₂ (s.ShowsBatch P rule) (groups s.config.batchSize rows) fs) :
    s.Renders P rule rows fs := by
  have hs := s.config.batchSize_pos
  have hat : ∀ i f, fs[i]? = some f →
      s.ShowsBatch P rule ((rows.drop (i * s.config.batchSize)).take s.config.batchSize) f := by
    intro i f hf
    obtain ⟨hi, hfi⟩ := List.getElem?_eq_some_iff.1 hf
    have hg : i < (groups s.config.batchSize rows).length := h.length_eq ▸ hi
    have hshows := List.Forall₂.get h hg hi
    rw [List.get_eq_getElem, List.get_eq_getElem, hfi,
      getElem?_groups hs (List.getElem?_eq_getElem hg)] at hshows
    exact hshows
  have hlength : fs.length = (rows.length + s.config.batchSize - 1) / s.config.batchSize := by
    rw [← h.length_eq, length_groups hs]
  refine ⟨?_, hlength, ?_, ?_, ?_⟩
  · rw [← List.length_eq_zero_iff, ← h.length_eq, List.length_eq_zero_iff, groups_eq_nil_iff hs]
  · intro f hf
    obtain ⟨batch, _, hshows⟩ := exists_of_mem_right h hf
    exact hshows.labels
  · intro i f hf
    rw [(hat i f hf).height, List.length_take, List.length_drop]
  · intro i f hf j hj
    have hshows := hat i f hf
    rw [hshows.height] at hj
    have hrows := hshows.rows.length_eq
    have hget := List.Forall₂.get hshows.rows hj (hrows ▸ hj)
    refine ⟨_, _, ?_, List.getElem?_eq_getElem (hrows ▸ hj), hget⟩
    have hfits : j < s.config.batchSize := by
      rw [List.length_take] at hj
      omega
    rw [← List.getElem?_drop, ← List.getElem?_take_of_lt hfits]
    exact List.getElem?_eq_getElem hj

theorem Resolves.showsBatch (hr : s.Resolves P) (hw : 0 < s.schema.width) {batch : List Row}
    {f : Frame} (h : readBatch s.grammar s.schema (s.expected P) s.schema.width batch = .ok f) :
    s.ShowsBatch P Tells batch f := by
  obtain ⟨hheight, hcells⟩ := hr.height_of_readBatch hw h
  refine ⟨(hr.columns_of_readBatch h).1, hheight, ?_⟩
  have hkept := hr.kept_of_readBatch h
  have hne : f.columns.map (·.cells) ≠ [] := by simpa using hr.columns_ne_nil hw h
  have hcolumns : List.Forall₂ (fun fk column => List.Forall₂
      (fun (row : Row) c => Tells fk.1.type (row[fk.2]?.bind present?) c) batch column)
      (s.kept P) (f.columns.map (·.cells)) := by
    rw [List.forall₂_map_right_iff]
    apply hkept.imp
    intro fk c hread
    obtain ⟨stored, hs, hc⟩ := readField_eq_ok_iff.1 hread
    subst hc
    have htells := Grammar.tells_of_readColumn hs
    rwa [cellsAt, List.forall₂_map_left_iff] at htells
  rw [f.rows_eq_tableOf, tableOf_eq_rowsOf hne (by simpa using hcells)]
  exact forall₂_rowsOf hcolumns

theorem rows_of_strict {config : Config} {fields : Nat} {d : Char} {text : List Char}
    {batches : List (List Row)} (hd : 128 ≤ d.toNat)
    (hmark : config.hasHeader = false → Unmarked (strictLines d .rowStart text))
    (h : batchesOf config fields d text = batches.map .ok) : ∃ rows : List Row,
      strictRowsOf d config.hasHeader text = rows.map .ok ∧ batches.flatten = filled rows ∧
      (BlanksAside rows → batches = groups config.batchSize (filled rows)) ∧
      ('\x00' ∉ text →
        filledRecords (plainRecords d config.hasHeader text) = (filled rows).map some) := by
  rw [batchesOf, Grammar.ofDelimiter, if_neg (Nat.not_lt.2 hd)] at h
  obtain ⟨rows, hrows, hflatten, haside, hfilled⟩ :=
    rows_of_strictBatches config.batchSize_pos hmark h
  refine ⟨rows, hrows, hflatten, haside, hfilled ?_⟩
  intro hq
  subst hq
  exact absurd hd (by decide)

variable {files : String → Except SourceFault ByteArray} {fs : List Frame} {d : Char}
  {text : List Char} {batches : List (List Row)}

private theorem rendered_of_lenient (hd : d.toNat < 128)
    (hstep : LenientInStep d s.config.hasHeader text) {file : Except SourceFault ByteArray}
    (ht : s.text? file = some (d, text)) (hb : s.batches? file = some batches)
    (hshows : List.Forall₂ (s.ShowsBatch P rule) batches fs) : ∃ rows,
      plainRecords d s.config.hasHeader text = rows.map some ∧ s.Renders P rule rows fs := by
  have hp := readsPlainly_of_steady ht hd hstep.steady
  obtain ⟨rows, hrec, hgroups, _⟩ := hp.batches?_eq_some_iff.1 hb
  obtain ⟨d', text', ht', hrows⟩ := records?_eq_some_iff.1 hrec
  cases ht.symm.trans ht'
  rw [hgroups] at hshows
  exact ⟨rows, hstep.recordsOf_eq ▸ hrows, renders_of_groups hshows⟩

private theorem rendered_of_strict (hd : 128 ≤ d.toNat)
    (hstep : StrictInStep d s.config.hasHeader text)
    (hb : batchesOf s.config s.schema.width d text = batches.map .ok)
    (hshows : List.Forall₂ (s.ShowsBatch P rule) batches fs) : ∃ rows,
      plainRecords d s.config.hasHeader text = rows.map some ∧ s.Renders P rule rows fs := by
  obtain ⟨rows, hrows, _, haside, hfilled⟩ := rows_of_strict hd hstep.mark hb
  have hall : filledRecords (plainRecords d s.config.hasHeader text) =
      plainRecords d s.config.hasHeader text := by
    apply List.filter_eq_self.2
    intro r hr
    cases r with
    | none => rfl
    | some row => simp [hstep.filled row hr]
  rw [haside (hstep.aside rows hrows)] at hshows
  exact ⟨filled rows, by rw [← hall, hfilled hstep.null], renders_of_groups hshows⟩

private def pair (hasHeader : Bool) : CsvSource :=
  ⟨⟨[⟨"a", .utf8, true⟩, ⟨"b", .utf8, true⟩]⟩, "n.csv", ⟨2, hasHeader, ";", Nat.two_pos⟩⟩

private def lines : String := ";\"\"\r\nx;1\r\n y;\r\nz\r\n"

private theorem KeepsRecords.renders {rows : List Row} {d : Char} {text : List Char}
    (h : s.KeepsRecords files P) (hscan : (s.scan files P).result = .ok fs)
    (ht : s.text? (files s.path) = some (d, text))
    (hrows : plainRecords d s.config.hasHeader text = rows.map some) :
    s.Renders P Keeps rows fs := by
  obtain ⟨rows', hrows', hrenders⟩ := h fs hscan d text ht
  rwa [map_some_injective (hrows.symm.trans hrows')]

private def triples : CsvSource :=
  ⟨⟨[⟨"a", .utf8, false⟩]⟩, "n.csv", ⟨3, false, ",", by decide⟩⟩

private def nullableNumbers : CsvSource :=
  ⟨⟨[⟨"a", .float64, true⟩]⟩, "n.csv", .standard⟩

end CsvSource
end QueryPlan
