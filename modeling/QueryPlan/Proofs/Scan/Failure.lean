import QueryPlan.Proofs.Csv.Overflow
import QueryPlan.Proofs.Scan.Batches
/-!
# Failures of a scan

A scan promises two kinds of failures: names that do not resolve, and faults of the source under its
path. It keeps the promise unless the first batch that fails has a row at fault or too few columns,
which takes a delimiter outside ASCII, or has a column of integers that overflows before any other
column fails.
-/
namespace QueryPlan.CsvSource
open Csv

def Promised (s : CsvSource) (e : ScanError) : Prop :=
  (∃ u us, e = .unresolved u us) ∨ ∃ fault, e = .read s.path (.source fault)

inductive Breaks (s : CsvSource) (fileWidth : Nat) : Except ReadError (List Row) → Prop
  | row (q : RowFault) : Breaks s fileWidth (.error (.row q))
  | narrow : Breaks s fileWidth (.error .narrow)
  | overflow {rows : List Row} {before after : List (Field × Nat)} {fk : Field × Nat}
      (hfields : (s.schema.fields.take fileWidth).zipIdx = before ++ fk :: after)
      (hbefore : ∀ x ∈ before, ∃ cells, s.grammar.cells? x.1 (cellsAt rows x.2) = some cells)
      (h : s.grammar.readColumn fk.1.type fk.1.nullable (cellsAt rows fk.2) = .error .overflow) :
      Breaks s fileWidth (.ok rows)

/-- The first batch of a file that does not become a frame breaks the promise. -/
def Escapes (s : CsvSource) (P : List String) (file : Except SourceFault ByteArray) : Prop :=
  ∃ d text before batch after, s.text? file = some (d, text) ∧
    batchesOf s.config s.schema.width d text = before ++ batch :: after ∧
    (∀ x ∈ before, ∃ rows f, x = .ok rows ∧ readBatch s.grammar s.schema (s.expected P)
      (fileWidth (batchesOf s.config s.schema.width d text)) rows = .ok f) ∧
    s.Breaks (fileWidth (batchesOf s.config s.schema.width d text)) batch

variable {s : CsvSource} {P : List String} {file : Except SourceFault ByteArray}

theorem readBatches_eq_error_iff {g : Grammar} {schema expected : Schema}
    {batches : List (Except ReadError (List Row))} {e : ReadError} :
    readBatches g schema expected batches = .error e ↔ ∃ before batch after,
      batches = before ++ batch :: after ∧
      (∀ x ∈ before, ∃ rows f, x = .ok rows ∧
        readBatch g schema expected (fileWidth batches) rows = .ok f) ∧
      (batch = .error e ∨ ∃ rows, batch = .ok rows ∧
        readBatch g schema expected (fileWidth batches) rows = .error e) := by
  rw [readBatches, mapM_eq_error_iff]
  simp only [bind_eq_ok_iff, bind_eq_error_iff]
  constructor
  · rintro ⟨before, batch, after, hs, hb, hf⟩
    refine ⟨before, batch, after, hs, fun x hx => ?_, hf⟩
    obtain ⟨f, rows, hrows, h⟩ := hb x hx
    exact ⟨rows, f, hrows, h⟩
  · rintro ⟨before, batch, after, hs, hb, hf⟩
    refine ⟨before, batch, after, hs, fun x hx => ?_, hf⟩
    obtain ⟨rows, f, hrows, h⟩ := hb x hx
    exact ⟨f, rows, hrows, h⟩

theorem readColumns_eq_error_iff {g : Grammar} {schema : Schema} {fileWidth : Nat}
    {rows : List Row} {e : ReadError} : readColumns g schema fileWidth rows = .error e ↔
      ∃ before fk after, (schema.fields.take fileWidth).zipIdx = before ++ fk :: after ∧
        (∀ x ∈ before, ∃ cells, g.cells? x.1 (cellsAt rows x.2) = some cells) ∧
        g.readColumn fk.1.type fk.1.nullable (cellsAt rows fk.2) = .error e := by
  have hcells : ∀ x : Field × Nat, (∃ c, readField g rows x.1 x.2 = .ok c) ↔
      ∃ cells, g.cells? x.1 (cellsAt rows x.2) = some cells := by
    intro x
    simp only [readField_eq_ok_iff, Grammar.cells?_eq_some_iff]
    constructor
    · rintro ⟨c, ⟨storage, cells⟩, h, -⟩
      exact ⟨cells, storage, h⟩
    · rintro ⟨cells, storage, h⟩
      exact ⟨_, _, h, rfl⟩
  rw [readColumns, mapM_eq_error_iff]
  constructor
  · rintro ⟨before, fk, after, hs, hb, hf⟩
    exact ⟨before, fk, after, hs, fun x hx => (hcells x).1 (hb x hx), readField_eq_error_iff.1 hf⟩
  · rintro ⟨before, fk, after, hs, hb, hf⟩
    exact ⟨before, fk, after, hs, fun x hx => (hcells x).2 (hb x hx), readField_eq_error_iff.2 hf⟩

theorem Resolves.readBatch_eq_error (hr : s.Resolves P) {fileWidth : Nat} {rows : List Row}
    {e : ReadError} (h : readBatch s.grammar s.schema (s.expected P) fileWidth rows = .error e) :
    (∃ fault, e = .source fault) ∨ e = .overflow ∧ s.Breaks fileWidth (.ok rows) := by
  cases hc : readColumns s.grammar s.schema fileWidth rows with
  | error e' =>
    rw [readBatch_of_columns_error hc] at h
    cases h
    obtain ⟨before, fk, after, hs, hb, hf⟩ := readColumns_eq_error_iff.1 hc
    rcases Grammar.readColumn_fails hf with rfl | ⟨rfl, -⟩
    · exact .inl ⟨_, rfl⟩
    · exact .inr ⟨rfl, .overflow hs hb hf⟩
  | ok columns =>
    -- columns that convert leave the width of the file and the missing cells to complain of
    by_cases hw : fileWidth = s.schema.width
    · subst hw
      rw [readBatch_of_columns (fields_expected s P) hr.nodup_expected hc] at h
      split at h
      · cases h
        exact .inl ⟨_, rfl⟩
      · cases h
    · rw [readBatch_of_width hc hw] at h
      cases h
      exact .inl ⟨_, rfl⟩

/-- A source that fails does so by a fault of its own, unless a batch breaks the promise. -/
theorem Resolves.read_eq_error (hr : s.Resolves P) {e : ReadError}
    (h : s.read (s.expected P) file = .error e) :
    (∃ fault, e = .source fault) ∨ s.Escapes P file := by
  cases ht : s.text? file with
  | none =>
    obtain ⟨fault, hf⟩ := read_of_text_none ht
    rw [hf] at h
    cases h
    exact .inl ⟨fault, rfl⟩
  | some dt =>
    obtain ⟨d, text⟩ := dt
    rw [read_of_text ht, ← grammar_of_text ht] at h
    obtain ⟨before, batch, after, hs, hb, hf⟩ := readBatches_eq_error_iff.1 h
    rcases hf with rfl | ⟨rows, rfl, hf⟩
    · have hmem : .error e ∈ batchesOf s.config s.schema.width d text := by simp [hs]
      rcases error_of_batchesOf hmem with rfl | ⟨-, rfl | ⟨q, rfl⟩⟩
      · exact .inl ⟨_, rfl⟩
      · exact .inr ⟨d, text, before, _, after, ht, hs, hb, .narrow⟩
      · exact .inr ⟨d, text, before, _, after, ht, hs, hb, .row q⟩
    · rcases hr.readBatch_eq_error hf with hf | ⟨-, hf⟩
      · exact .inl hf
      · exact .inr ⟨d, text, before, _, after, ht, hs, hb, hf⟩

theorem Escapes.read_eq_error (h : s.Escapes P file) :
    ∃ e, s.read (s.expected P) file = .error e ∧ ∀ fault, e ≠ .source fault := by
  obtain ⟨d, text, before, batch, after, ht, hs, hb, hbreaks⟩ := h
  rw [read_of_text ht, ← grammar_of_text ht]
  cases hbreaks with
  | row q =>
    refine ⟨.row q, ?_, by simp⟩
    exact readBatches_eq_error_iff.2 ⟨before, _, after, hs, hb, .inl rfl⟩
  | narrow =>
    refine ⟨.narrow, ?_, by simp⟩
    exact readBatches_eq_error_iff.2 ⟨before, _, after, hs, hb, .inl rfl⟩
  | @overflow rows _ _ _ hfields hbefore hcolumn =>
    refine ⟨.overflow, ?_, by simp⟩
    refine readBatches_eq_error_iff.2 ⟨before, _, after, hs, hb, .inr ⟨rows, rfl, ?_⟩⟩
    exact readBatch_of_columns_error
      (readColumns_eq_error_iff.2 ⟨_, _, _, hfields, hbefore, hcolumn⟩)

theorem Escapes.cause (h : s.Escapes P file) : s.grammar = .strict ∨
    ∃ d text rows, s.text? file = some (d, text) ∧
      .ok rows ∈ batchesOf s.config s.schema.width d text ∧ ∃ fk ∈ s.schema.fields.zipIdx,
        fk.1.type = .int64 ∧ ∃ t ∈ Texts.present (cellsAt rows fk.2), LeadsOut t := by
  obtain ⟨d, text, before, batch, after, ht, hs, hb, hbreaks⟩ := h
  have hmem : batch ∈ batchesOf s.config s.schema.width d text := by simp [hs]
  have hstrict : ∀ e, batch = .error e → (∀ fault, e ≠ .source fault) → s.grammar = .strict := by
    rintro e rfl hne
    rcases error_of_batchesOf hmem with hfault | ⟨hg, -⟩
    · exact absurd hfault (hne .malformed)
    · exact (grammar_of_text ht).trans hg
  cases hbreaks with
  | row q => exact .inl (hstrict _ rfl (by simp))
  | narrow => exact .inl (hstrict _ rfl (by simp))
  | @overflow rows _ _ fk hfields _ hcolumn =>
    rcases Grammar.readColumn_fails hcolumn with h | ⟨-, htype, hout⟩
    · cases h
    · refine .inr ⟨d, text, rows, ht, hmem, fk, ?_, htype, hout⟩
      have hfk : fk ∈ (s.schema.fields.take
          (fileWidth (batchesOf s.config s.schema.width d text))).zipIdx := by simp [hfields]
      obtain ⟨f, k⟩ := fk
      rw [List.mk_mem_zipIdx_iff_getElem?] at hfk ⊢
      rw [List.getElem?_take] at hfk
      split at hfk
      · exact hfk
      · cases hfk

private theorem scan_sixty_five_bits :
    ((single .int64).scan (everywhere "18446744073709551616\n") []).result =
      .error (.read "n.csv" .overflow) := by decide +kernel

private def couple : CsvSource :=
  ⟨⟨[⟨"a", .utf8, false⟩, ⟨"b", .utf8, false⟩]⟩, "n.csv", { Config.standard with delimiter := "é" }⟩

private theorem not_promised_of {files : String → Except SourceFault ByteArray} {e : ReadError}
    (h : (s.scan files P).result = .error (.read s.path e)) (hne : ∀ fault, e ≠ .source fault) :
    ¬ ∀ e, (s.scan files P).result = .error e → s.Promised e := by
  intro hall
  rcases hall _ h with ⟨u, us, hu⟩ | ⟨fault, hfault⟩
  · cases hu
  · cases hfault
    exact hne fault rfl

end QueryPlan.CsvSource
