import QueryPlan.Proofs.Csv.Conformance
/-!
# Reading one batch

The columns of a batch come from its rows by position. What a batch comes to is decided by three
questions in order: whether every column converts, whether there are as many columns as fields, and
which required column asked for lacks a cell first.
-/
namespace QueryPlan.Csv

theorem readField_eq_ok_iff {g : Grammar} {rows : List Row} {f : Field} {k : Nat} {c : Column} :
    readField g rows f k = .ok c ↔ ∃ stored,
      g.readColumn f.type f.nullable (cellsAt rows k) = .ok stored ∧
        c = ⟨.text f.name, stored.1.name, stored.2⟩ := by
  unfold readField
  rw [bind_eq_ok_iff]
  constructor
  · rintro ⟨stored, hs, h⟩
    cases h
    exact ⟨stored, hs, rfl⟩
  · rintro ⟨stored, hs, rfl⟩
    exact ⟨stored, hs, rfl⟩

theorem readField_eq_error_iff {g : Grammar} {rows : List Row} {f : Field} {k : Nat}
    {e : ReadError} : readField g rows f k = .error e ↔
      g.readColumn f.type f.nullable (cellsAt rows k) = .error e := by
  unfold readField
  rw [bind_eq_error_iff]
  constructor
  · rintro (h | ⟨stored, -, h⟩)
    · exact h
    · cases h
  · exact .inl

theorem holds_of_readField {g : Grammar} {rows : List Row} {f : Field} {k : Nat} {c : Column}
    (h : readField g rows f k = .ok c) : c.Holds f := by
  obtain ⟨stored, hs, rfl⟩ := readField_eq_ok_iff.1 h
  refine ⟨rfl, ?_⟩
  rw [DataType.ofStorageName_name, (Grammar.readColumn_fits hs).layout]

theorem length_cells_of_readField {g : Grammar} {rows : List Row} {f : Field} {k : Nat} {c : Column}
    (h : readField g rows f k = .ok c) : c.cells.length = rows.length := by
  obtain ⟨stored, hs, rfl⟩ := readField_eq_ok_iff.1 h
  rw [(Grammar.readColumn_fits hs).length, cellsAt, List.length_map]

theorem readColumns_eq_ok_iff {g : Grammar} {schema : Schema} {rows : List Row}
    {columns : List Column} : readColumns g schema schema.width rows = .ok columns ↔
      List.Forall₂ (fun fk c => readField g rows fk.1 fk.2 = .ok c) schema.fields.zipIdx columns := by
  rw [readColumns, mapM_eq_ok_iff, Schema.width, List.take_length]

theorem holds_of_readColumns {g : Grammar} {schema : Schema} {rows : List Row}
    {columns : List Column} (h : readColumns g schema schema.width rows = .ok columns) :
    List.Forall₂ Column.Holds schema.fields columns := by
  have hz := (readColumns_eq_ok_iff.1 h).imp fun fk c => holds_of_readField
  rw [← List.forall₂_map_left_iff (f := Prod.fst) (R := Column.Holds), List.zipIdx_map_fst] at hz
  exact hz

theorem height_of_readColumns {g : Grammar} {schema : Schema} {rows : List Row}
    {columns : List Column} (h : readColumns g schema schema.width rows = .ok columns) :
    ∀ c ∈ columns, c.cells.length = rows.length := by
  intro c hc
  obtain ⟨fk, -, hf⟩ := exists_of_mem_right (readColumns_eq_ok_iff.1 h) hc
  exact length_cells_of_readField hf

variable {g : Grammar} {schema expected : Schema} {fileWidth : Nat} {rows : List Row}

theorem readBatch_of_columns_error {e : ReadError}
    (h : readColumns g schema fileWidth rows = .error e) :
    readBatch g schema expected fileWidth rows = .error e := by
  rw [readBatch, h]
  rfl

theorem readBatch_of_width {columns : List Column}
    (h : readColumns g schema fileWidth rows = .ok columns) (hw : fileWidth ≠ schema.width) :
    readBatch g schema expected fileWidth rows =
      .error (.source (.width schema.width fileWidth)) := by
  rw [readBatch, h, checkWidth, if_neg hw]
  rfl

theorem contains_names_filter {p : String → Bool}
    (he : expected.fields = schema.fields.filter fun f => p f.name) {f : Field}
    (hf : f ∈ schema.fields) : expected.names.contains f.name = p f.name := by
  rw [Bool.eq_iff_iff, List.contains_iff_mem, Schema.names, he]
  constructor
  · intro h
    obtain ⟨f', hf', hn⟩ := List.mem_map.1 h
    rw [← hn]
    exact (List.mem_filter.1 hf').2
  · intro h
    exact List.mem_map.2 ⟨f, List.mem_filter.2 ⟨hf, h⟩, rfl⟩

theorem holds_restrict {p : String → Bool} {columns : List Column}
    (he : expected.fields = schema.fields.filter fun f => p f.name)
    (h : List.Forall₂ Column.Holds schema.fields columns) :
    List.Forall₂ Column.Holds expected.fields (Frame.restrict ⟨columns⟩ expected.names).columns := by
  have hp : ∀ f ∈ schema.fields, ∀ c : Column, c.Holds f →
      p f.name = expected.names.contains c.label.name := by
    intro f hf c hc
    rw [hc.label, Label.name, contains_names_filter he hf]
  rw [he]
  exact forall₂_filter h hp

theorem missingField?_restrict (frame : Frame) :
    missingField? (frame.restrict expected.names) expected = missingField? frame expected := by
  rw [missingField?, missingField?, ← List.head?_filter, ← List.head?_filter]
  refine congrArg List.head? (List.filter_congr fun f hf => congrArg (!f.nullable && ·) ?_)
  have hm : f.name ∈ expected.names := List.mem_map.2 ⟨f, hf, rfl⟩
  rw [Bool.eq_iff_iff, Frame.hasMissing, Frame.hasMissing, List.any_eq_true, List.any_eq_true]
  constructor
  · rintro ⟨c, hc, h⟩
    exact ⟨c, (List.mem_filter.1 hc).1, h⟩
  · rintro ⟨c, hc, h⟩
    have hl : c.label = .text f.name := by
      simpa using (Bool.and_eq_true_iff.1 h).1
    exact ⟨c, List.mem_filter.2 ⟨hc, by simpa [hl, Label.name] using hm⟩, h⟩

/-- A batch whose columns all convert is refused only for a cell that a required column lacks. -/
theorem readBatch_of_columns {p : String → Bool} {columns : List Column}
    (he : expected.fields = schema.fields.filter fun f => p f.name) (hn : expected.names.Nodup)
    (h : readColumns g schema schema.width rows = .ok columns) :
    readBatch g schema expected schema.width rows =
      match missingField? ⟨columns⟩ expected with
      | some f => .error (.source (.missingValue f.name))
      | none => .ok (Frame.restrict ⟨columns⟩ expected.names) := by
  have hc := checkBatch_of_holds (holds_restrict he (holds_of_readColumns h)) hn
  rw [missingField?_restrict] at hc
  rw [readBatch, h, checkWidth, if_pos rfl]
  change (checkBatch _ expected >>= fun _ => _) = _
  rw [hc]
  cases missingField? ⟨columns⟩ expected with
  | some f => rfl
  | none => rfl

end QueryPlan.Csv
