import QueryPlan.Proofs.Csv.Nullable
import QueryPlan.Proofs.Scan.Batches
/-!
# Declaring columns nullable

When fields are declared nullable, the file is cut into batches as before, and each of their columns
is read as a nullable one. The scan goes on to succeed exactly when these columns hold the texts that
nullable columns take, and then the frames have the cells they had. That is not every text which a
required column takes: words for integers, and words for truth values in mixed letter case, are
refused.
-/
namespace QueryPlan

def Field.relaxed (turned : String → Bool) (f : Field) : Field :=
  { f with nullable := f.nullable || turned f.name }

def Schema.relaxed (turned : String → Bool) (s : Schema) : Schema :=
  ⟨s.fields.map (Field.relaxed turned)⟩

def Field.turns (turned : String → Bool) (f : Field) : Bool :=
  turned f.name && !f.nullable

/-- Two frames that differ in nothing but the layouts of their columns. -/
structure Frame.SameCells (f f' : Frame) : Prop where
  labels : f'.labels = f.labels
  height : f'.height = f.height
  cells : f'.columns.map (·.cells) = f.columns.map (·.cells)

namespace CsvSource
open Csv

def relaxed (turned : String → Bool) (s : CsvSource) : CsvSource :=
  { s with schema := s.schema.relaxed turned }

/-- The fields that are turned hold texts in a batch which nullable columns take. -/
def TakesTurned (s : CsvSource) (turned : String → Bool) (batch : List Row) : Prop :=
  ∀ fk ∈ s.schema.fields.zipIdx, fk.1.turns turned = true →
    Texts.TakenAs (cellsAt batch fk.2) fk.1.type

instance (s : CsvSource) (turned : String → Bool) (batch : List Row) :
    Decidable (s.TakesTurned turned batch) :=
  inferInstanceAs (Decidable (∀ fk ∈ s.schema.fields.zipIdx, fk.1.turns turned = true →
    Texts.TakenAs (cellsAt batch fk.2) fk.1.type))

/-- The fields that are turned and asked for have columns in a batch whose cells stay. -/
def ComparesTurned (s : CsvSource) (turned : String → Bool) (P : List String) (batch : List Row) :
    Prop :=
  ∀ fk ∈ s.kept P, fk.1.turns turned = true →
    s.grammar.Comparable fk.1.type (cellsAt batch fk.2)

instance (s : CsvSource) (turned : String → Bool) (P : List String) (batch : List Row) :
    Decidable (s.ComparesTurned turned P batch) :=
  inferInstanceAs (Decidable (∀ fk ∈ s.kept P, fk.1.turns turned = true →
    s.grammar.Comparable fk.1.type (cellsAt batch fk.2)))

/-- A scan that succeeds would do so with the same cells if some fields were nullable. -/
def AcceptsMore (s : CsvSource) (turned : String → Bool)
    (files : String → Except SourceFault ByteArray) (P : List String) : Prop :=
  ∀ fs, (s.scan files P).result = .ok fs →
    ∃ fs', ((s.relaxed turned).scan files P).result = .ok fs' ∧ List.Forall₂ Frame.SameCells fs fs'

structure Relaxes (s : CsvSource) (turned : String → Bool)
    (files : String → Except SourceFault ByteArray) (P : List String) (batches : List (List Row))
    (fs : List Frame) : Prop where
  accepted : (∃ fs', ((s.relaxed turned).scan files P).result = .ok fs') ↔
    ∀ batch ∈ batches, s.TakesTurned turned batch
  same : ∀ fs', ((s.relaxed turned).scan files P).result = .ok fs' →
    (∀ batch ∈ batches, s.ComparesTurned turned P batch) → List.Forall₂ Frame.SameCells fs fs'

section Relaxed
variable {s : CsvSource} {turned : String → Bool} {P : List String}

theorem names_relaxed (s : CsvSource) (turned : String → Bool) :
    (s.relaxed turned).schema.names = s.schema.names := by
  simp [relaxed, Schema.relaxed, Schema.names, Field.relaxed]

theorem width_relaxed (s : CsvSource) (turned : String → Bool) :
    (s.relaxed turned).schema.width = s.schema.width := by
  simp [relaxed, Schema.relaxed, Schema.width]

theorem projected_relaxed (s : CsvSource) (turned : String → Bool) (P : List String) :
    (s.relaxed turned).projected P = s.projected P := by
  rw [projected, projected, names_relaxed]

theorem resolves_relaxed : (s.relaxed turned).Resolves P ↔ s.Resolves P := by
  rw [Resolves, Resolves, names_relaxed]

/-- Of the schema only the width has to do with the batches of a file. -/
theorem batches?_relaxed (s : CsvSource) (turned : String → Bool)
    (file : Except SourceFault ByteArray) :
    (s.relaxed turned).batches? file = s.batches? file := by
  rw [batches?, width_relaxed]
  rfl

theorem mem_relaxed {p : Field × Nat → Prop} :
    (∀ fk ∈ (s.relaxed turned).schema.fields.zipIdx, p fk) ↔
      ∀ fk ∈ s.schema.fields.zipIdx, p (fk.1.relaxed turned, fk.2) := by
  rw [relaxed, Schema.relaxed, List.zipIdx_map, List.forall_mem_map]
  rfl

theorem kept_relaxed (s : CsvSource) (turned : String → Bool) (P : List String) :
    (s.relaxed turned).kept P = (s.kept P).map fun fk => (fk.1.relaxed turned, fk.2) := by
  rw [kept, relaxed, Schema.relaxed, List.zipIdx_map, List.filter_map]
  rfl

theorem relaxed_of_not_turns {f : Field} (h : ¬ f.turns turned = true) : f.relaxed turned = f := by
  obtain ⟨name, type, nullable⟩ := f
  cases nullable with
  | true => rfl
  | false => simpa [Field.relaxed, Field.turns] using h

theorem nullable_of_turns {f : Field} (h : f.turns turned = true) :
    f.nullable = false ∧ (f.relaxed turned).nullable = true := by
  simp only [Field.turns, Bool.and_eq_true, Bool.not_eq_true'] at h
  simp [Field.relaxed, h.1, h.2]

variable {batch : List Row} {f f' : Frame}

theorem admitsBatch_relaxed (hf : ∀ f ∈ s.schema.fields, f.type ≠ .float64)
    (h : s.AdmitsBatch P batch) :
    (s.relaxed turned).AdmitsBatch P batch ↔ s.TakesTurned turned batch := by
  rw [AdmitsBatch, mem_relaxed, TakesTurned]
  refine forall₂_congr fun fk hfk => ?_
  have hfloat := hf fk.1 (List.fst_mem_of_mem_zipIdx hfk)
  by_cases ht : fk.1.turns turned = true
  · obtain ⟨_, hnullable⟩ := nullable_of_turns ht
    have htaken : (∃ cells, s.grammar.cells? (fk.1.relaxed turned) (cellsAt batch fk.2) =
        some cells) ↔ Texts.TakenAs (cellsAt batch fk.2) fk.1.type :=
      Grammar.exists_cells?_iff hfloat hnullable
    simp only [ht, true_imp_iff, ← htaken, hnullable, Bool.true_eq_false, false_imp_iff,
      imp_true_iff, and_true]
    rfl
  · rw [relaxed_of_not_turns ht]
    exact iff_of_true (h fk hfk) fun ht' => absurd ht' ht

theorem sameCells_of (hl : f'.labels = f.labels)
    (hc : f'.columns.map (·.cells) = f.columns.map (·.cells)) : f.SameCells f' := by
  refine ⟨hl, ?_, hc⟩
  obtain ⟨columns⟩ := f
  obtain ⟨columns'⟩ := f'
  cases columns with
  | nil =>
    obtain rfl := List.map_eq_nil_iff.1 hc
    rfl
  | cons c columns =>
    obtain ⟨c', rest, rfl, hcells, _⟩ := List.map_eq_cons_iff.1 hc
    exact congrArg List.length hcells

theorem Resolves.sameCells_of_readBatch (hr : s.Resolves P) (hn : s.schema.names.Nodup)
    (hf : ∀ f ∈ s.schema.fields, f.type ≠ .float64) (hc : s.ComparesTurned turned P batch)
    (h : readBatch s.grammar s.schema (s.expected P) s.schema.width batch = .ok f)
    (h' : readBatch (s.relaxed turned).grammar (s.relaxed turned).schema
      ((s.relaxed turned).expected P) (s.relaxed turned).schema.width batch = .ok f') :
    f.SameCells f' := by
  have hr' : (s.relaxed turned).Resolves P := resolves_relaxed.2 hr
  have hn' : (s.relaxed turned).schema.names.Nodup := by rwa [names_relaxed]
  have hadmits := (hr.exists_readBatch_iff hn).1 ⟨f, h⟩
  have hadmits' := mem_relaxed.1 ((hr'.exists_readBatch_iff hn').1 ⟨f', h'⟩)
  obtain ⟨hlabels, hcells⟩ := hr.columns_of_readBatch h
  obtain ⟨hlabels', hcells'⟩ := hr'.columns_of_readBatch h'
  refine sameCells_of ?_ ?_
  · rw [hlabels, hlabels', projected_relaxed]
  · rw [← hcells, ← hcells', kept_relaxed, List.map_map]
    refine List.map_congr_left fun fk hfk => ?_
    have hmem := (List.mem_filter.1 hfk).1
    by_cases ht : fk.1.turns turned = true
    · obtain ⟨hrequired, hnullable⟩ := nullable_of_turns ht
      obtain ⟨cells, hcells, _⟩ := hadmits fk hmem
      obtain ⟨cells', hcells', _⟩ := hadmits' fk hmem
      have hfloat := hf fk.1 (List.fst_mem_of_mem_zipIdx hmem)
      have heq : cells' = cells :=
        Grammar.cells?_unique hfloat hrequired hnullable rfl (hc fk hfk ht) hcells hcells'
      dsimp only [Function.comp_apply]
      rw [hcells, hcells', heq]
    · rw [Function.comp_apply, relaxed_of_not_turns ht]
      rfl

variable {files : String → Except SourceFault ByteArray} {fs : List Frame}

private def answered : CsvSource :=
  ⟨⟨[⟨"n", .int64, false⟩, ⟨"yes", .boolean, false⟩, ⟨"why", .utf8, false⟩]⟩, "n.csv", .standard⟩

private theorem not_acceptsMore {e : ScanError} (h : (s.scan files P).result = .ok fs)
    (h' : ((s.relaxed turned).scan files P).result = .error e) : ¬ s.AcceptsMore turned files P := by
  intro hmore
  obtain ⟨fs', hfs', _⟩ := hmore fs h
  rw [h'] at hfs'
  cases hfs'

private theorem not_acceptsMore_of_cells (h : (s.scan files P).result = .ok [f])
    (h' : ((s.relaxed turned).scan files P).result = .ok [f'])
    (hne : f'.columns.map (·.cells) ≠ f.columns.map (·.cells)) :
    ¬ s.AcceptsMore turned files P := by
  intro hmore
  obtain ⟨fs', hfs', hsame⟩ := hmore [f] h
  rw [h'] at hfs'
  cases hfs'
  cases hsame with
  | cons hcells _ => exact hne hcells.cells

end Relaxed
end CsvSource
end QueryPlan
