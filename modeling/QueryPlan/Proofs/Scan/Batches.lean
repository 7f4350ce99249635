import QueryPlan.Proofs.Csv.Accepted
import QueryPlan.Proofs.Csv.Gathering
import QueryPlan.Proofs.Scan.Content
/-!
# Batches that are accepted

A scan succeeds when every batch of its file can be made out, the first row of the file has a cell for
every field, and in every batch all columns convert and none that is asked for and required lacks a
cell.
-/
namespace QueryPlan.CsvSource
open Csv

def grammar (s : CsvSource) : Grammar :=
  .ofDelimiter (s.config.delimiter.toList.headD ',')

/-- The rows of a file batch by batch, if all batches can be made out. -/
def batches? (s : CsvSource) (file : Except SourceFault ByteArray) : Option (List (List Row)) :=
  (s.text? file).bind fun (d, text) =>
    (batchesOf s.config s.schema.width d text).mapM Except.toOption

def kept (s : CsvSource) (P : List String) : List (Field × Nat) :=
  s.schema.fields.zipIdx.filter fun fk => asks P fk.1.name

def AdmitsBatch (s : CsvSource) (P : List String) (rows : List Row) : Prop :=
  ∀ fk ∈ s.schema.fields.zipIdx, ∃ cells,
    s.grammar.cells? fk.1 (cellsAt rows fk.2) = some cells ∧
      (asks P fk.1.name = true → fk.1.nullable = false → .missing ∉ cells)

variable {s : CsvSource} {P : List String} {file : Except SourceFault ByteArray}

theorem grammar_of_text {d : Char} {text : List Char} (h : s.text? file = some (d, text)) :
    s.grammar = .ofDelimiter d := by
  rw [grammar, (text?_eq_some_iff.1 h).1, String.toList_singleton, List.headD_cons]

theorem batches?_eq_some_iff {batches : List (List Row)} : s.batches? file = some batches ↔
    ∃ d text, s.text? file = some (d, text) ∧
      batchesOf s.config s.schema.width d text = batches.map .ok := by
  rw [batches?, Option.bind_eq_some_iff]
  simp only [mapM_toOption_eq_some_iff, Prod.exists]

/-- No batch is empty or too long, and no row is without cells or wider than the first of its batch
and the first of the file. -/
theorem bounded_of_batches? {batches : List (List Row)} (h : s.batches? file = some batches) :
    ∀ batch ∈ batches, Bounded s.config.batchSize (fileWidth (batches.map .ok)) batch := by
  obtain ⟨d, text, -, hb⟩ := batches?_eq_some_iff.1 h
  exact bounded_of_batchesOf hb

theorem fileWidth_of_batches? {batches : List (List Row)} (h : s.batches? file = some batches) :
    ∀ row ∈ batches.flatten.head?, fileWidth (batches.map .ok) = row.length := by
  intro row hrow
  cases batches with
  | nil => cases hrow
  | cons batch batches =>
    have hne := (bounded_of_batches? h batch List.mem_cons_self).ne_nil
    obtain ⟨first, rest, rfl⟩ := List.exists_cons_of_ne_nil hne
    cases hrow
    rfl

private theorem missingField?_eq_none_iff {rows : List Row} {columns : List Column}
    (hn : s.schema.names.Nodup)
    (h : readColumns s.grammar s.schema s.schema.width rows = .ok columns) :
    missingField? ⟨columns⟩ (s.expected P) = none ↔ ∀ fk ∈ s.schema.fields.zipIdx, ∀ cells,
      s.grammar.cells? fk.1 (cellsAt rows fk.2) = some cells →
        asks P fk.1.name = true → fk.1.nullable = false → .missing ∉ cells := by
  rw [missingField?_expected, List.find?_eq_none]
  constructor
  · intro hf fk hfk cells hc ha hnull hm
    have hmem : fk.1 ∈ s.schema.fields := List.fst_mem_of_mem_zipIdx hfk
    have hmissing := (hasMissing_of_readColumns hn h hfk).2 ⟨cells, hc, hm⟩
    exact hf fk.1 hmem (by simp [ha, hnull, hmissing])
  · intro hall f hf hq
    obtain ⟨k, hk, rfl⟩ := List.mem_iff_getElem.1 hf
    have hfk : (s.schema.fields[k], k) ∈ s.schema.fields.zipIdx := by
      exact List.mk_mem_zipIdx_iff_getElem?.2 (List.getElem?_eq_getElem hk)
    simp only [Bool.and_eq_true, Bool.not_eq_true'] at hq
    obtain ⟨ha, hnull, hmissing⟩ := hq
    obtain ⟨cells, hc, hm⟩ := (hasMissing_of_readColumns hn h hfk).1 hmissing
    exact hall _ hfk cells hc ha hnull hm

theorem Resolves.exists_readBatch_iff (hr : s.Resolves P) (hn : s.schema.names.Nodup)
    {rows : List Row} :
    (∃ f, readBatch s.grammar s.schema (s.expected P) s.schema.width rows = .ok f) ↔
      s.AdmitsBatch P rows := by
  simp only [hr.readBatch_eq_ok_iff, true_and]
  constructor
  · rintro ⟨f, columns, hc, hm, rfl⟩ fk hfk
    obtain ⟨cells, hcells⟩ := exists_readColumns_iff.1 ⟨columns, hc⟩ fk hfk
    exact ⟨cells, hcells, (missingField?_eq_none_iff hn hc).1 hm fk hfk cells hcells⟩
  · intro h
    obtain ⟨columns, hc⟩ := exists_readColumns_iff.2 fun fk hfk => (h fk hfk).imp fun _ => And.left
    refine ⟨_, columns, hc, (missingField?_eq_none_iff hn hc).2 ?_, rfl⟩
    intro fk hfk cells hcells
    obtain ⟨cells', hcells', hm⟩ := h fk hfk
    cases hcells.symm.trans hcells'
    exact hm

theorem Resolves.kept_of_readBatch (hr : s.Resolves P) {rows : List Row} {f : Frame}
    (h : readBatch s.grammar s.schema (s.expected P) s.schema.width rows = .ok f) :
    List.Forall₂ (fun fk c => readField s.grammar rows fk.1 fk.2 = .ok c) (s.kept P) f.columns := by
  obtain ⟨-, columns, hc, -, rfl⟩ := hr.readBatch_eq_ok_iff.1 h
  apply forall₂_filter (readColumns_eq_ok_iff.1 hc)
  intro fk hfk c hread
  obtain ⟨stored, -, rfl⟩ := readField_eq_ok_iff.1 hread
  rw [Label.name, contains_names_filter (fields_expected s P) (List.fst_mem_of_mem_zipIdx hfk)]

theorem Resolves.columns_of_readBatch (hr : s.Resolves P) {rows : List Row} {f : Frame}
    (h : readBatch s.grammar s.schema (s.expected P) s.schema.width rows = .ok f) :
    f.labels = (s.projected P).map Label.text ∧ (s.kept P).map (fun fk =>
      (s.grammar.cells? fk.1 (cellsAt rows fk.2)).getD []) = f.columns.map (·.cells) := by
  constructor
  · obtain ⟨-, columns, hc, -, rfl⟩ := hr.readBatch_eq_ok_iff.1 h
    exact labels_restrict (holds_of_readColumns hc)
  · apply map_eq_map_of_forall₂ (hr.kept_of_readBatch h)
    intro fk c hread
    obtain ⟨stored, hs, rfl⟩ := readField_eq_ok_iff.1 hread
    rw [Grammar.cells?_eq_some_iff.2 ⟨stored.1, hs⟩, Option.getD_some]

private theorem forall₂_of_ok {α β ε : Type} {R : α → β → Prop} {xs : List (Except ε α)}
    {ys : List β} (h : List.Forall₂ (fun x y => ∃ a, x = .ok a ∧ R a y) xs ys) :
    ∃ as, xs = as.map .ok ∧ List.Forall₂ R as ys := by
  induction h with
  | nil => exact ⟨[], rfl, .nil⟩
  | @cons x y xs ys hxy _ ih =>
    obtain ⟨a, rfl, ha⟩ := hxy
    obtain ⟨as, rfl, has⟩ := ih
    exact ⟨a :: as, rfl, .cons ha has⟩

variable {files : String → Except SourceFault ByteArray}

/-- A scan takes the batches of its file, each of which becomes a frame. -/
theorem scan_eq_ok_iff_batches {fs : List Frame} : (s.scan files P).result = .ok fs ↔
    s.Resolves P ∧ ∃ batches, s.batches? (files s.path) = some batches ∧
      (∀ row ∈ batches.flatten.head?, row.length = s.schema.width) ∧
      List.Forall₂ (fun batch f =>
        readBatch s.grammar s.schema (s.expected P) s.schema.width batch = .ok f) batches fs := by
  rw [scan_eq_ok_iff]
  apply and_congr_right
  intro hr
  rw [read_eq_ok_iff]
  constructor
  · rintro ⟨d, text, ht, hf⟩
    obtain ⟨batches, hb, hf⟩ := forall₂_of_ok hf
    have hbatches := batches?_eq_some_iff.2 ⟨d, text, ht, hb⟩
    rw [hb, ← grammar_of_text ht] at hf
    refine ⟨batches, hbatches, fun row hrow => ?_, hf.imp fun batch f h => ?_⟩
    · rw [← fileWidth_of_batches? hbatches row hrow]
      obtain ⟨batch, hm, -⟩ := List.mem_flatten.1 (List.mem_of_mem_head? hrow)
      obtain ⟨f, -, hbatch⟩ := exists_of_mem_left hf hm
      exact (hr.readBatch_eq_ok_iff.1 hbatch).1
    · have hw := (hr.readBatch_eq_ok_iff.1 h).1
      rwa [hw] at h
  · rintro ⟨batches, hbatches, hw, hf⟩
    obtain ⟨d, text, ht, hb⟩ := batches?_eq_some_iff.1 hbatches
    refine ⟨d, text, ht, ?_⟩
    rw [hb, ← grammar_of_text ht, List.forall₂_map_left_iff]
    cases batches with
    | nil =>
      cases hf
      exact .nil
    | cons batch rest =>
      have hne := (bounded_of_batches? hbatches batch List.mem_cons_self).ne_nil
      obtain ⟨first, others, rfl⟩ := List.exists_cons_of_ne_nil hne
      rw [fileWidth_of_batches? hbatches first rfl, hw first rfl]
      exact hf.imp fun batch f h => ⟨batch, rfl, h⟩

theorem exists_scan_iff_batches (hn : s.schema.names.Nodup) :
    (∃ fs, (s.scan files P).result = .ok fs) ↔
      s.Resolves P ∧ ∃ batches, s.batches? (files s.path) = some batches ∧
        (∀ row ∈ batches.flatten.head?, row.length = s.schema.width) ∧
        ∀ batch ∈ batches, s.AdmitsBatch P batch := by
  simp only [scan_eq_ok_iff_batches]
  constructor
  · rintro ⟨fs, hr, batches, hbatches, hw, hf⟩
    refine ⟨hr, batches, hbatches, hw, fun batch hb => ?_⟩
    obtain ⟨f, -, hbatch⟩ := exists_of_mem_left hf hb
    exact (hr.exists_readBatch_iff hn).1 ⟨f, hbatch⟩
  · rintro ⟨hr, batches, hbatches, hw, ha⟩
    have hall : ∀ batch ∈ batches, ∃ f,
        readBatch s.grammar s.schema (s.expected P) s.schema.width batch = .ok f :=
      fun batch hb => (hr.exists_readBatch_iff hn).2 (ha batch hb)
    obtain ⟨fs, hf⟩ := exists_forall₂ hall
    exact ⟨fs, hr, batches, hbatches, hw, hf⟩

end QueryPlan.CsvSource
