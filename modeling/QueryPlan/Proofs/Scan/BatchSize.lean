import QueryPlan.Proofs.Csv.Form
import QueryPlan.Proofs.Scan.Acceptance
/-!
# Scanning in batches of another size

Where every record has a cell for each field, the size of the batches matters through the conversion
of columns only, since each batch converts by itself. Two sizes lead to the same rows exactly when
they convert the columns alike, and they do for columns that are converted text by text.
-/
namespace QueryPlan.CsvSource
open Csv

def withBatchSize (s : CsvSource) (size : Nat) (h : 0 < size) : CsvSource :=
  { s with config := { s.config with batchSize := size, batchSize_pos := h } }

/-- Two scans succeed together, and then with the same rows. -/
def Agree (x y : Outcome ScanError (List Frame)) : Prop :=
  ((∃ fs, x.result = .ok fs) ↔ ∃ fs, y.result = .ok fs) ∧
    ∀ fs gs, x.result = .ok fs → y.result = .ok gs → contents fs = contents gs

/-- Both sources convert all columns of some records or neither does, and then the columns asked for
become the same cells. -/
def ConvertAlike (s t : CsvSource) (P : List String) (rows : List Row) : Prop :=
  (s.ColumnsFit P rows ↔ t.ColumnsFit P rows) ∧
    (s.ColumnsFit P rows → ∀ fk ∈ s.kept P, s.columnOf rows fk = t.columnOf rows fk)

variable {s : CsvSource} {P : List String} {rows : List Row}

theorem admits_iff_columnsFit (hw : ∀ row ∈ rows, row.length = s.schema.width) :
    s.Admits P rows ↔ s.ColumnsFit P rows := by
  refine ⟨Admits.columns, fun h => ⟨fun row hrow => hw row (List.mem_of_mem_head? hrow), ?_, h⟩⟩
  intro batch hb
  have hm : ∀ row ∈ batch, row.length = s.schema.width :=
    fun row hrow => hw row (mem_of_mem_groups s.config.batchSize_pos hb hrow)
  cases batch with
  | nil => rfl
  | cons first rest =>
    apply List.all_eq_true.2
    intro row hrow
    rw [List.headD_cons, hm row hrow, hm first List.mem_cons_self]
    simp

theorem length_kept (h : s.ColumnsFit P rows) :
    ∀ fk ∈ s.kept P, ((s.columnOf rows fk).getD []).length = rows.length := by
  intro fk hfk
  obtain ⟨cells, hc, -⟩ := h fk (List.mem_filter.1 hfk).1
  rw [hc, Option.getD_some, length_columnOf hc]

variable {files : String → Except SourceFault ByteArray}

private theorem exists_scan_iff_columnsFit (hn : s.schema.names.Nodup)
    (hp : s.ReadsPlainly (files s.path)) (hrec : s.records? (files s.path) = some rows)
    (hw : ∀ row ∈ rows, row.length = s.schema.width) :
    (∃ fs, (s.scan files P).result = .ok fs) ↔ s.Resolves P ∧ s.ColumnsFit P rows := by
  rw [exists_scan_iff hn hp]
  apply and_congr_right
  intro _
  constructor
  · rintro ⟨rows', hrec', h⟩
    cases hrec.symm.trans hrec'
    exact h.columns
  · intro h
    exact ⟨rows, hrec, (admits_iff_columnsFit hw).2 h⟩

private theorem contents_eq_iff {a b : Nat} (ha : 0 < a) (hb : 0 < b) (hn : s.schema.names.Nodup)
    (hpa : (s.withBatchSize a ha).ReadsPlainly (files s.path))
    (hpb : (s.withBatchSize b hb).ReadsPlainly (files s.path))
    (hrec : s.records? (files s.path) = some rows)
    (hfa : (s.withBatchSize a ha).ColumnsFit P rows)
    (hfb : (s.withBatchSize b hb).ColumnsFit P rows) {fs gs : List Frame}
    (hfs : ((s.withBatchSize a ha).scan files P).result = .ok fs)
    (hgs : ((s.withBatchSize b hb).scan files P).result = .ok gs) : contents fs = contents gs ↔
      ∀ fk ∈ s.kept P, (s.withBatchSize a ha).columnOf rows fk =
        (s.withBatchSize b hb).columnOf rows fk := by
  have hinj : Function.Injective fun row : List Cell => ((s.projected P).map Label.text, row) :=
    fun _ _ h => (Prod.mk.inj h).2
  have hcolumns : ∀ fk ∈ s.kept P, ((s.withBatchSize a ha).columnOf rows fk).getD [] =
      ((s.withBatchSize b hb).columnOf rows fk).getD [] ↔
        (s.withBatchSize a ha).columnOf rows fk = (s.withBatchSize b hb).columnOf rows fk := by
    intro fk hfk
    obtain ⟨cells, hc, -⟩ := hfa fk (List.mem_filter.1 hfk).1
    obtain ⟨cells', hc', -⟩ := hfb fk (List.mem_filter.1 hfk).1
    rw [hc, hc', Option.getD_some, Option.getD_some, Option.some.injEq]
  rw [contents_of_scan (s := s.withBatchSize a ha) hn hpa hrec hfs,
    contents_of_scan (s := s.withBatchSize b hb) hn hpb hrec hgs]
  have hla : ∀ fk ∈ s.kept P,
      (((s.withBatchSize a ha).columnOf rows fk).getD []).length = rows.length := length_kept hfa
  have hlb : ∀ fk ∈ s.kept P,
      (((s.withBatchSize b hb).columnOf rows fk).getD []).length = rows.length := length_kept hfb
  refine (List.map_injective_iff.2 hinj).eq_iff.trans ?_
  exact (tableOf_inj hla hlb).trans (forall₂_congr hcolumns)

private theorem records?_of_scan (hn : s.schema.names.Nodup) (hp : s.ReadsPlainly (files s.path))
    (h : ∃ fs, (s.scan files P).result = .ok fs) : ∃ rows, s.records? (files s.path) = some rows := by
  obtain ⟨-, rows, hrec, -⟩ := (exists_scan_iff hn hp).1 h
  exact ⟨rows, hrec⟩

private theorem agree_iff {a b : Nat} (ha : 0 < a) (hb : 0 < b) (hn : s.schema.names.Nodup)
    (hpa : (s.withBatchSize a ha).ReadsPlainly (files s.path))
    (hpb : (s.withBatchSize b hb).ReadsPlainly (files s.path))
    (hw : ∀ rows, s.records? (files s.path) = some rows →
      ∀ row ∈ rows, row.length = s.schema.width) :
    Agree ((s.withBatchSize a ha).scan files P) ((s.withBatchSize b hb).scan files P) ↔
      ∀ rows, s.records? (files s.path) = some rows → s.Resolves P →
        ConvertAlike (s.withBatchSize a ha) (s.withBatchSize b hb) P rows := by
  have hfa : ∀ rows, s.records? (files s.path) = some rows →
      ((∃ fs, ((s.withBatchSize a ha).scan files P).result = .ok fs) ↔
        s.Resolves P ∧ (s.withBatchSize a ha).ColumnsFit P rows) := fun rows hrec =>
    exists_scan_iff_columnsFit (s := s.withBatchSize a ha) hn hpa hrec (hw rows hrec)
  have hfb : ∀ rows, s.records? (files s.path) = some rows →
      ((∃ fs, ((s.withBatchSize b hb).scan files P).result = .ok fs) ↔
        s.Resolves P ∧ (s.withBatchSize b hb).ColumnsFit P rows) := fun rows hrec =>
    exists_scan_iff_columnsFit (s := s.withBatchSize b hb) hn hpb hrec (hw rows hrec)
  constructor
  -- on records of the right width a scan succeeds exactly when its columns fit
  · intro h rows hrec hr
    have hfit : (s.withBatchSize a ha).ColumnsFit P rows ↔
        (s.withBatchSize b hb).ColumnsFit P rows := by
      have hiff := (hfa rows hrec).symm.trans (h.1.trans (hfb rows hrec))
      exact ⟨fun hf => (hiff.1 ⟨hr, hf⟩).2, fun hf => (hiff.2 ⟨hr, hf⟩).2⟩
    refine ⟨hfit, fun hf => ?_⟩
    obtain ⟨fs, hfs⟩ := (hfa rows hrec).2 ⟨hr, hf⟩
    obtain ⟨gs, hgs⟩ := (hfb rows hrec).2 ⟨hr, hfit.1 hf⟩
    exact (contents_eq_iff ha hb hn hpa hpb hrec hf (hfit.1 hf) hfs hgs).1 (h.2 fs gs hfs hgs)
  · intro h
    constructor
    · constructor
      · intro hs
        obtain ⟨rows, hrec⟩ := records?_of_scan (s := s.withBatchSize a ha) hn hpa hs
        obtain ⟨hr, hf⟩ := (hfa rows hrec).1 hs
        exact (hfb rows hrec).2 ⟨hr, (h rows hrec hr).1.1 hf⟩
      · intro hs
        obtain ⟨rows, hrec⟩ := records?_of_scan (s := s.withBatchSize b hb) hn hpb hs
        obtain ⟨hr, hf⟩ := (hfb rows hrec).1 hs
        exact (hfa rows hrec).2 ⟨hr, (h rows hrec hr).1.2 hf⟩
    · intro fs gs hfs hgs
      obtain ⟨rows, hrec⟩ := records?_of_scan (s := s.withBatchSize a ha) hn hpa ⟨fs, hfs⟩
      obtain ⟨hr, hf⟩ := (hfa rows hrec).1 ⟨fs, hfs⟩
      obtain ⟨hfit, hcolumns⟩ := h rows hrec hr
      exact (contents_eq_iff ha hb hn hpa hpb hrec hf (hfit.1 hf) hfs hgs).2 (hcolumns hf)

private theorem convertAlike_of_settled {a b : Nat} (ha : 0 < a) (hb : 0 < b)
    (h : ∀ fk ∈ s.schema.fields.zipIdx, Settled s.grammar fk.1 (cellsAt rows fk.2)) :
    ConvertAlike (s.withBatchSize a ha) (s.withBatchSize b hb) P rows := by
  have heq : ∀ fk ∈ s.schema.fields.zipIdx, (s.withBatchSize a ha).columnOf rows fk =
      (s.withBatchSize b hb).columnOf rows fk :=
    fun fk hfk => (h fk hfk).separable.cellsBy_eq ha hb
  refine ⟨?_, fun _ fk hfk => heq fk (List.mem_filter.1 hfk).1⟩
  apply forall₂_congr
  intro fk hfk
  rw [heq fk hfk]

/-- Where every record has a cell for each field, scans in batches of two sizes agree exactly when
the columns convert alike, and they do when all columns are settled. -/
theorem scan_batch_size (s : CsvSource) (files : String → Except SourceFault ByteArray)
    (P : List String) {a b : Nat} (ha : 0 < a) (hb : 0 < b) (hn : s.schema.names.Nodup)
    (hpa : (s.withBatchSize a ha).ReadsPlainly (files s.path))
    (hpb : (s.withBatchSize b hb).ReadsPlainly (files s.path))
    (hw : ∀ rows, s.records? (files s.path) = some rows →
      ∀ row ∈ rows, row.length = s.schema.width) :
    (Agree ((s.withBatchSize a ha).scan files P) ((s.withBatchSize b hb).scan files P) ↔
      ∀ rows, s.records? (files s.path) = some rows → s.Resolves P →
        ConvertAlike (s.withBatchSize a ha) (s.withBatchSize b hb) P rows) ∧
    ((∀ rows, s.records? (files s.path) = some rows →
      ∀ fk ∈ s.schema.fields.zipIdx, Settled s.grammar fk.1 (cellsAt rows fk.2)) →
      Agree ((s.withBatchSize a ha).scan files P) ((s.withBatchSize b hb).scan files P)) := by
  have hexact := agree_iff (P := P) ha hb hn hpa hpb hw
  refine ⟨hexact, fun h => hexact.2 fun rows hrec _ => ?_⟩
  exact convertAlike_of_settled ha hb (h rows hrec)

private theorem single_readsPlainly (type : DataType) (text : String)
    (hm : dropMark text.toList = text.toList) (ht : isTame ',' 0 text.toList = true) (n : Nat)
    (h : 0 < n) : ((single type).withBatchSize n h).ReadsPlainly (everywhere text "n.csv") := by
  have htext : ((single type).withBatchSize n h).text? (everywhere text "n.csv") =
      some (',', text.toList) :=
    text?_eq_some_iff.2 ⟨rfl, by decide, _, rfl, (decode_toUTF8 .lenient text).trans (congrArg some hm)⟩
  exact readsPlainly_of_tame htext (by decide) ht

/-- Three integers in batches of one and of two. -/
theorem scan_batch_size_integers :
    Agree (((single .int64).withBatchSize 1 (by decide)).scan (everywhere "1\n2\n-3\n") [])
      (((single .int64).withBatchSize 2 (by decide)).scan (everywhere "1\n2\n-3\n") []) := by
  have hp := single_readsPlainly .int64 "1\n2\n-3\n" (by decide) (by decide +kernel)
  have hrec : (single .int64).records? (everywhere "1\n2\n-3\n" "n.csv") =
      some [["1"], ["2"], ["-3"]] := by decide +kernel
  refine (scan_batch_size (single .int64) (everywhere "1\n2\n-3\n") [] (by decide) (by decide)
    (by decide) (hp 1 _) (hp 2 _) ?_).2 ?_
  · intro rows h
    cases hrec.symm.trans h
    decide
  · intro rows h fk hfk
    cases hrec.symm.trans h
    cases List.mem_singleton.1 hfk
    refine .inr (.inr ⟨.inl rfl, .whole, ?_⟩)
    intro t ht
    have hm : t = "1" ∨ t = "2" ∨ t = "-3" := by
      have hpresent : Texts.present (cellsAt [["1"], ["2"], ["-3"]] 0) = ["1", "2", "-3"] := by
        decide +kernel
      have hmem : t ∈ Texts.present (cellsAt [["1"], ["2"], ["-3"]] 0) := ht
      rw [hpresent] at hmem
      simpa using hmem
    rcases hm with rfl | rfl | rfl
    · exact ⟨by decide +kernel, 1, by decide +kernel⟩
    · exact ⟨by decide +kernel, 2, by decide +kernel⟩
    · exact ⟨by decide +kernel, -3, by decide +kernel⟩

private theorem not_agree_of_ok {x y : Outcome ScanError (List Frame)} {fs gs : List Frame}
    (hx : x.result = .ok fs) (hy : y.result = .ok gs) (h : contents fs ≠ contents gs) :
    ¬ Agree x y := fun ha => h (ha.2 fs gs hx hy)

private theorem not_agree_of_error {x y : Outcome ScanError (List Frame)} {fs : List Frame}
    (hx : x.result = .ok fs) (hy : y.result.toOption = none) : ¬ Agree x y := by
  intro ha
  obtain ⟨gs, hgs⟩ := ha.1.1 ⟨fs, hx⟩
  rw [hgs] at hy
  cases hy

/-- A word becomes an integer where no number stands beside it in its batch. A row that ends in a
carriage return alone is read twice where no batch ends with it. A wide row passes where a batch
begins with it. -/
theorem batch_size_matters : (∀ type, (single type).schema.names.Nodup) ∧
    ((∀ n (h : 0 < n),
        ((single .int64).withBatchSize n h).ReadsPlainly (everywhere "1\ntrue\n" "n.csv")) ∧
      ¬ Agree (((single .int64).withBatchSize 1 (by decide)).scan (everywhere "1\ntrue\n") [])
        (((single .int64).withBatchSize 2 (by decide)).scan (everywhere "1\ntrue\n") [])) ∧
    ((single .utf8).records? (everywhere "x\na\r b\n" "n.csv") = some [["x"], ["a"], [" b"]] ∧
      ¬ Agree (((single .utf8).withBatchSize 2 (by decide)).scan (everywhere "x\na\r b\n") [])
        (((single .utf8).withBatchSize 3 (by decide)).scan (everywhere "x\na\r b\n") [])) ∧
    ((∀ n (h : 0 < n),
        ((single .utf8).withBatchSize n h).ReadsPlainly (everywhere "a\nb,c\n" "n.csv")) ∧
      ¬ Agree (((single .utf8).withBatchSize 1 (by decide)).scan (everywhere "a\nb,c\n") [])
        (((single .utf8).withBatchSize 2 (by decide)).scan (everywhere "a\nb,c\n") [])) := by
  refine ⟨fun _ => List.nodup_singleton _, ⟨?_, ?_⟩, ⟨by decide +kernel, ?_⟩, ?_, ?_⟩
  · exact single_readsPlainly .int64 _ (by decide) (by decide +kernel)
  · have hone : (((single .int64).withBatchSize 1 (by decide)).scan
        (everywhere "1\ntrue\n") []).result =
        .ok [⟨[⟨.text "a", "int64", [.integer 1]⟩]⟩, ⟨[⟨.text "a", "int64", [.integer 1]⟩]⟩] := by
      decide +kernel
    exact not_agree_of_error hone (by decide +kernel)
  · have htwo : (((single .utf8).withBatchSize 2 (by decide)).scan
        (everywhere "x\na\r b\n") []).result =
        .ok [⟨[⟨.text "a", "string", [.text "x", .text "a"]⟩]⟩,
          ⟨[⟨.text "a", "string", [.text " b"]⟩]⟩] := by decide +kernel
    have hthree : (((single .utf8).withBatchSize 3 (by decide)).scan
        (everywhere "x\na\r b\n") []).result =
        .ok [⟨[⟨.text "a", "string", [.text "x", .text "a", .text "a"]⟩]⟩,
          ⟨[⟨.text "a", "string", [.text " b"]⟩]⟩] := by decide +kernel
    exact not_agree_of_ok htwo hthree (by decide +kernel)
  · exact single_readsPlainly .utf8 _ (by decide) (by decide +kernel)
  · have hone : (((single .utf8).withBatchSize 1 (by decide)).scan
        (everywhere "a\nb,c\n") []).result =
        .ok [⟨[⟨.text "a", "string", [.text "a"]⟩]⟩, ⟨[⟨.text "a", "string", [.text "b"]⟩]⟩] := by
      decide +kernel
    exact not_agree_of_error hone (by decide +kernel)

end QueryPlan.CsvSource
