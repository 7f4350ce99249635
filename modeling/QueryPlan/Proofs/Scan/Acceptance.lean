import QueryPlan.Proofs.Csv.PlainReading
import QueryPlan.Proofs.Scan.Batches
import QueryPlan.Proofs.Table
/-!
# Files that are accepted

A scan of a file whose records are read plainly succeeds when the first record has a cell for every
field, no record is wider than the first one of its batch, every column converts batch by batch, and
no column that is asked for and required lacks a cell. The frames then hold, under the names asked
for, the rows that the converted columns make.
-/
namespace QueryPlan.CsvSource
open Csv

/-- The records of a file, if it has a text that closes them all. -/
def records? (s : CsvSource) (file : Except SourceFault ByteArray) : Option (List Row) :=
  (s.text? file).bind fun (d, text) => (recordsOf d s.config.hasHeader text).mapM id

/-- Each batch of the file is the next group of its records. -/
def ReadsPlainly (s : CsvSource) (file : Except SourceFault ByteArray) : Prop :=
  ∀ d text, s.text? file = some (d, text) →
    batchesOf s.config s.schema.width d text = plainBatches s.config.batchSize (recordsOf d s.config.hasHeader text)

/-- The cells that the records have for a field, converted batch by batch. -/
def columnOf (s : CsvSource) (rows : List Row) (fk : Field × Nat) : Option (List Cell) :=
  s.grammar.cellsBy fk.1 s.config.batchSize (cellsAt rows fk.2)

def ColumnsFit (s : CsvSource) (P : List String) (rows : List Row) : Prop :=
  ∀ fk ∈ s.schema.fields.zipIdx, ∃ cells, s.columnOf rows fk = some cells ∧
    (asks P fk.1.name = true → fk.1.nullable = false → .missing ∉ cells)

structure Admits (s : CsvSource) (P : List String) (rows : List Row) : Prop where
  width : ∀ row ∈ rows.head?, row.length = s.schema.width
  even : ∀ batch ∈ groups s.config.batchSize rows, isEven batch = true
  columns : s.ColumnsFit P rows

variable {s : CsvSource} {P : List String} {file : Except SourceFault ByteArray}

/-- A steady text whose delimiter is an ASCII character is read plainly. -/
theorem readsPlainly_of_steady {d : Char} {text : List Char} (h : s.text? file = some (d, text))
    (hd : d.toNat < 128) (ht : isSteadyText d s.config.hasHeader text = true) :
    s.ReadsPlainly file := by
  intro d' text' h'
  cases h.symm.trans h'
  rw [batchesOf, Grammar.ofDelimiter, if_pos hd]
  exact batchesOfText_eq s.config.batchSize_pos _ ht

theorem readsPlainly_of_tame {d : Char} {text : List Char} (h : s.text? file = some (d, text))
    (hd : d.toNat < 128) (ht : isTame d 0 text = true) : s.ReadsPlainly file :=
  readsPlainly_of_steady h hd (isSteadyText_of_isTame _ ht)

theorem records?_eq_some_iff {rows : List Row} : s.records? file = some rows ↔
    ∃ d text, s.text? file = some (d, text) ∧
      recordsOf d s.config.hasHeader text = rows.map some := by
  rw [records?, Option.bind_eq_some_iff]
  simp only [mapM_id_eq_some_iff, Prod.exists]

theorem ReadsPlainly.batches?_eq_some_iff (hp : s.ReadsPlainly file) {batches : List (List Row)} :
    s.batches? file = some batches ↔ ∃ rows, s.records? file = some rows ∧
      batches = groups s.config.batchSize rows ∧ ∀ batch ∈ batches, isEven batch = true := by
  have hs := s.config.batchSize_pos
  rw [CsvSource.batches?_eq_some_iff]
  constructor
  · rintro ⟨d, text, ht, hb⟩
    rw [hp d text ht, plainBatches_eq_ok_iff hs] at hb
    obtain ⟨rows, hrows, hg, he⟩ := hb
    exact ⟨rows, records?_eq_some_iff.2 ⟨d, text, ht, hrows⟩, hg, he⟩
  · rintro ⟨rows, hrec, hg, he⟩
    obtain ⟨d, text, ht, hrows⟩ := records?_eq_some_iff.1 hrec
    refine ⟨d, text, ht, ?_⟩
    rw [hp d text ht]
    exact (plainBatches_eq_ok_iff hs).2 ⟨rows, hrows, hg, he⟩

theorem scan_eq_ok_iff_groups {files : String → Except SourceFault ByteArray} {fs : List Frame}
    (hp : s.ReadsPlainly (files s.path)) : (s.scan files P).result = .ok fs ↔
      s.Resolves P ∧ ∃ rows, s.records? (files s.path) = some rows ∧
        (∀ row ∈ rows.head?, row.length = s.schema.width) ∧
        (∀ batch ∈ groups s.config.batchSize rows, isEven batch = true) ∧
        List.Forall₂ (fun batch f =>
          readBatch s.grammar s.schema (s.expected P) s.schema.width batch = .ok f)
          (groups s.config.batchSize rows) fs := by
  rw [scan_eq_ok_iff_batches]
  apply and_congr_right
  intro _
  simp only [hp.batches?_eq_some_iff]
  constructor
  · rintro ⟨batches, ⟨rows, hrec, rfl, he⟩, hw, hf⟩
    rw [flatten_groups s.config.batchSize_pos] at hw
    exact ⟨rows, hrec, hw, he, hf⟩
  · rintro ⟨rows, hrec, hw, he, hf⟩
    refine ⟨_, ⟨rows, hrec, rfl, he⟩, ?_, hf⟩
    rwa [flatten_groups s.config.batchSize_pos]

theorem columnOf_eq_some_iff {rows : List Row} {fk : Field × Nat} {cells : List Cell} :
    s.columnOf rows fk = some cells ↔ ∃ css, List.Forall₂
      (fun batch cs => s.grammar.cells? fk.1 (cellsAt batch fk.2) = some cs)
      (groups s.config.batchSize rows) css ∧ css.flatten = cells := by
  rw [columnOf, Grammar.cellsBy_eq_some_iff, cellsAt, groups_map s.config.batchSize_pos]
  simp only [List.forall₂_map_left_iff]
  rfl

theorem columnsFit_iff {rows : List Row} : s.ColumnsFit P rows ↔
    ∀ batch ∈ groups s.config.batchSize rows, s.AdmitsBatch P batch := by
  constructor
  · intro h batch hb fk hfk
    obtain ⟨cells, hc, hm⟩ := h fk hfk
    obtain ⟨css, hf, rfl⟩ := columnOf_eq_some_iff.1 hc
    obtain ⟨cs, hcs, hcells⟩ := exists_of_mem_left hf hb
    refine ⟨cs, hcells, fun ha hn hmem => hm ha hn ?_⟩
    exact List.mem_flatten.2 ⟨cs, hcs, hmem⟩
  · intro h fk hfk
    have hall : ∀ batch ∈ groups s.config.batchSize rows, ∃ cs,
        s.grammar.cells? fk.1 (cellsAt batch fk.2) = some cs ∧
          (asks P fk.1.name = true → fk.1.nullable = false → .missing ∉ cs) :=
      fun batch hb => h batch hb fk hfk
    obtain ⟨css, hcss⟩ := exists_forall₂ hall
    refine ⟨css.flatten, columnOf_eq_some_iff.2 ⟨css, hcss.imp fun _ _ => And.left, rfl⟩, ?_⟩
    intro ha hn hmem
    obtain ⟨cs, hcs, hmem⟩ := List.mem_flatten.1 hmem
    obtain ⟨batch, -, -, hm⟩ := exists_of_mem_right hcss hcs
    exact hm ha hn hmem

theorem length_columnOf {rows : List Row} {fk : Field × Nat} {cells : List Cell}
    (h : s.columnOf rows fk = some cells) : cells.length = rows.length := by
  rw [Grammar.length_of_cellsBy s.config.batchSize_pos h, cellsAt, List.length_map]

/-- A scan succeeds exactly when the file has records that are accepted. -/
theorem exists_scan_iff {files : String → Except SourceFault ByteArray}
    (hn : s.schema.names.Nodup) (hp : s.ReadsPlainly (files s.path)) :
    (∃ fs, (s.scan files P).result = .ok fs) ↔
      s.Resolves P ∧ ∃ rows, s.records? (files s.path) = some rows ∧ s.Admits P rows := by
  rw [exists_scan_iff_batches hn]
  apply and_congr_right
  intro _
  simp only [hp.batches?_eq_some_iff]
  constructor
  · rintro ⟨batches, ⟨rows, hrec, rfl, he⟩, hw, ha⟩
    rw [flatten_groups s.config.batchSize_pos] at hw
    exact ⟨rows, hrec, hw, he, columnsFit_iff.2 ha⟩
  · rintro ⟨rows, hrec, hw, he, hc⟩
    refine ⟨_, ⟨rows, hrec, rfl, he⟩, ?_, columnsFit_iff.1 hc⟩
    rwa [flatten_groups s.config.batchSize_pos]

private theorem contents_of_batches {batches : List (List Row)} {fs : List Frame}
    (hr : s.Resolves P) (hadmits : ∀ batch ∈ batches, s.AdmitsBatch P batch)
    (hf : List.Forall₂ (fun batch f =>
      readBatch s.grammar s.schema (s.expected P) s.schema.width batch = .ok f) batches fs) :
    contents fs = (tableOf ((s.kept P).map fun fk => batches.flatMap fun batch =>
      (s.grammar.cells? fk.1 (cellsAt batch fk.2)).getD [])).map
        fun row => ((s.projected P).map Label.text, row) := by
  have hlength : ∀ batch ∈ batches, ∀ fk ∈ s.kept P,
      ((s.grammar.cells? fk.1 (cellsAt batch fk.2)).getD []).length = batch.length := by
    intro batch hb fk hfk
    obtain ⟨cells, hc, -⟩ := hadmits batch hb fk (List.mem_filter.1 hfk).1
    rw [hc, Option.getD_some, Grammar.length_of_cells? hc, cellsAt, List.length_map]
  clear hadmits
  induction hf with
  | nil =>
    have hnil : tableOf ((s.kept P).map fun _ => []) = [] := by
      cases s.kept P with
      | nil => rfl
      | cons fk fks => simp [tableOf, rowsOf]
    simp only [List.flatMap_nil]
    rw [hnil]
    rfl
  | @cons batch f batches fs hbatch _ ih =>
    obtain ⟨hlabels, hcells⟩ := hr.columns_of_readBatch hbatch
    have hrest : ∀ fk ∈ s.kept P, (batches.flatMap fun b =>
        (s.grammar.cells? fk.1 (cellsAt b fk.2)).getD []).length = batches.flatten.length := by
      intro fk hfk
      rw [List.length_flatMap, List.length_flatten]
      exact congrArg List.sum (List.map_congr_left fun b hb =>
        hlength b (List.mem_cons_of_mem _ hb) fk hfk)
    have hfirst := hlength batch List.mem_cons_self
    rw [contents, List.flatMap_cons, ← contents,
      ih fun b hb => hlength b (List.mem_cons_of_mem _ hb), f.rows_eq_tableOf, ← hcells, hlabels,
      ← List.map_append, ← tableOf_append hfirst hrest]
    rfl

theorem contents_of_scan {files : String → Except SourceFault ByteArray} {fs : List Frame}
    {rows : List Row} (hn : s.schema.names.Nodup) (hp : s.ReadsPlainly (files s.path))
    (hrec : s.records? (files s.path) = some rows) (h : (s.scan files P).result = .ok fs) :
    contents fs = (tableOf ((s.kept P).map fun fk => (s.columnOf rows fk).getD [])).map
      fun row => ((s.projected P).map Label.text, row) := by
  obtain ⟨hr, rows', hrec', -, -, hf⟩ := (scan_eq_ok_iff_groups hp).1 h
  cases hrec.symm.trans hrec'
  have hadmits : ∀ batch ∈ groups s.config.batchSize rows, s.AdmitsBatch P batch := by
    intro batch hb
    obtain ⟨f, -, hbatch⟩ := exists_of_mem_left hf hb
    exact (hr.exists_readBatch_iff hn).1 ⟨f, hbatch⟩
  rw [contents_of_batches hr hadmits hf]
  have hcolumns : ∀ fk ∈ s.kept P, (groups s.config.batchSize rows).flatMap (fun batch =>
      (s.grammar.cells? fk.1 (cellsAt batch fk.2)).getD []) = (s.columnOf rows fk).getD [] := by
    intro fk hfk
    obtain ⟨cells, hc, -⟩ := columnsFit_iff.2 hadmits fk (List.mem_filter.1 hfk).1
    obtain ⟨css, hcss, rfl⟩ := columnOf_eq_some_iff.1 hc
    rw [hc, Option.getD_some, List.flatMap_def]
    congr 1
    have hmap := map_eq_map_of_forall₂ (f := fun batch =>
      (s.grammar.cells? fk.1 (cellsAt batch fk.2)).getD []) (g := id) hcss fun batch cs hcs => by
        rw [hcs, Option.getD_some, id]
    rw [hmap, List.map_id]
  rw [List.map_congr_left hcolumns]

end QueryPlan.CsvSource
