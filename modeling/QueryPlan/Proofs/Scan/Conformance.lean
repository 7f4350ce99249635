import QueryPlan.Plan.Build
import QueryPlan.Proofs.Scan.Batches
/-!
# Frames that conform to a plan

A scan node is built only for the schema of its source. Every frame that scanning the source gives
has therefore the fields of the node that the projection asks for, in their order, with the names
and types the node declares, and lacks cells only where the node allows it. No frame is empty, and
none has more rows than a batch.
-/
namespace QueryPlan

/-- A field that was found agrees with a declared one, and lacks cells only if it may. -/
structure Field.Conforms (declared found : Field) : Prop where
  name : found.name = declared.name
  type : found.type = declared.type
  nullable : found.nullable = true → declared.nullable = true

def Schema.Conforms (declared found : Schema) : Prop :=
  List.Forall₂ Field.Conforms declared.fields found.fields

structure Frame.Conforms (f : Frame) (declared : Schema) (size : Nat) : Prop where
  schema : ∃ found, Schema.ofFrame f = .ok found ∧ declared.Conforms found
  height_pos : 0 < f.height
  height_le : f.height ≤ size
  height_cells : ∀ c ∈ f.columns, c.cells.length = f.height

theorem Frame.height_eq {f : Frame} {n : Nat} (hne : f.columns ≠ [])
    (h : ∀ c ∈ f.columns, c.cells.length = n) : f.height = n := by
  obtain ⟨c, rest, hcons⟩ := List.exists_cons_of_ne_nil hne
  rw [Frame.height, hcons]
  exact h c (by simp [hcons])

/-- A column of the field's name lacks a cell although the field may not. -/
def Frame.Lacks (frame : Frame) (f : Field) : Prop :=
  f.nullable = false ∧ ∃ c ∈ frame.columns, c.label = .text f.name ∧ .missing ∈ c.cells

theorem Frame.lacks_iff {frame : Frame} {f : Field} :
    (!f.nullable && frame.hasMissing f.name) = true ↔ frame.Lacks f := by
  rw [Bool.and_eq_true, Bool.not_eq_true', Csv.hasMissing_iff, Lacks]

instance Frame.decidableLacks (frame : Frame) (f : Field) : Decidable (frame.Lacks f) :=
  decidable_of_iff _ lacks_iff

theorem Frame.nullable_of_not_lacks {frame : Frame} {f : Field} (h : ¬ frame.Lacks f) {c : Column}
    (hc : c ∈ frame.columns) (hl : c.label = .text f.name) (hm : .missing ∈ c.cells) :
    f.nullable = true := by
  by_contra hn
  exact h ⟨Bool.eq_false_iff.2 hn, c, hc, hl, hm⟩

theorem Frame.conforms_iff {frame : Frame} {expected found : Schema} (hn : expected.names.Nodup)
    (hl : frame.labels = expected.names.map .text) (hfound : Schema.ofFrame frame = .ok found) :
    expected.Conforms found ↔
      (∀ f ∈ expected.fields, ¬ frame.Lacks f) ∧ found.types = expected.types := by
  have hshows := (Schema.ofFrame_eq_ok_iff.1 hfound).2
  constructor
  · intro h
    refine ⟨?_, (map_eq_map_of_forall₂ h fun _ _ hg => hg.type.symm).symm⟩
    rintro f hf ⟨hrequired, c, hc, hlabel, hmissing⟩
    obtain ⟨g, hg, hcg⟩ := exists_of_mem_left hshows hc
    obtain ⟨f', hf', hconf⟩ := exists_of_mem_right h hg
    have hname : f'.name = f.name := by
      rw [← hconf.name, hcg.name, hlabel]
      rfl
    have hsame : f' = f := List.inj_on_of_nodup_map hn hf' hf hname
    have hnullable := hconf.nullable (hcg.nullable.2 hmissing)
    rw [hsame, hrequired] at hnullable
    cases hnullable
  · rintro ⟨hfull, htypes⟩
    rw [Schema.names, List.map_map, eq_comm, Frame.labels, map_eq_map_iff_forall₂] at hl
    rw [eq_comm, Schema.types, Schema.types, map_eq_map_iff_forall₂] at htypes
    have hnamed : List.Forall₂ (fun f g => g.name = f.name ∧
        (g.nullable = true → f.nullable = true)) expected.fields found.fields := by
      refine forall₂_of_common ((List.forall₂_and_left _ _).2 ⟨hfull, hl⟩).flip hshows ?_
      rintro c hc f g ⟨hf, hlabel⟩ hg
      refine ⟨by rw [hg.name, ← hlabel]; rfl, fun hnullable => ?_⟩
      exact frame.nullable_of_not_lacks hf hc hlabel.symm (hg.nullable.1 hnullable)
    exact hnamed.mp (fun f g hfg htype => ⟨hfg.1, htype.symm, hfg.2⟩) htypes

namespace Csv

theorem missingField?_some_iff {frame : Frame} {expected : Schema} {f : Field} :
    missingField? frame expected = some f ↔ ∃ before after,
      expected.fields = before ++ f :: after ∧ (∀ g ∈ before, ¬ frame.Lacks g) ∧ frame.Lacks f := by
  rw [missingField?, List.find?_eq_some_iff_append]
  simp only [← Frame.lacks_iff, Bool.not_eq_true, Bool.not_eq_true']
  constructor
  · rintro ⟨hf, before, after, hsplit, hbefore⟩
    exact ⟨before, after, hsplit, hbefore, hf⟩
  · rintro ⟨before, after, hsplit, hbefore, hf⟩
    exact ⟨hf, before, after, hsplit, hbefore⟩

theorem missingField?_none_iff {frame : Frame} {expected : Schema} :
    missingField? frame expected = none ↔ ∀ f ∈ expected.fields, ¬ frame.Lacks f := by
  simp only [missingField?, List.find?_eq_none, Frame.lacks_iff]

end Csv

namespace CsvSource
open Csv
variable {s : CsvSource} {P : List String}

theorem Resolves.expected_ne_nil (hr : s.Resolves P) (hw : 0 < s.schema.width) :
    (s.expected P).fields ≠ [] := by
  have hex : ∃ f ∈ s.schema.fields, asks P f.name = true := by
    by_cases hP : P = []
    · obtain ⟨f, hf⟩ := List.exists_mem_of_length_pos hw
      exact ⟨f, hf, by simp [hP]⟩
    · obtain ⟨n, hn⟩ := List.exists_mem_of_ne_nil P hP
      have hcount : 0 < s.schema.names.count n := by
        rw [hr.1 n hn]
        exact Nat.one_pos
      obtain ⟨f, hf, hname⟩ := List.mem_map.1 (List.count_pos_iff.1 hcount)
      exact ⟨f, hf, (asks_iff hP).2 (hname ▸ hn)⟩
  obtain ⟨f, hf, ha⟩ := hex
  exact List.ne_nil_of_mem (List.mem_filter.2 ⟨hf, ha⟩)

theorem Resolves.columns_ne_nil (hr : s.Resolves P) (hw : 0 < s.schema.width) {g : Grammar}
    {rows : List Row} {f : Frame}
    (h : readBatch g s.schema (s.expected P) s.schema.width rows = .ok f) : f.columns ≠ [] := by
  obtain ⟨_, columns, hc, _, hf⟩ := hr.readBatch_eq_ok_iff.1 h
  have hholds := holds_restrict (fields_expected s P) (holds_of_readColumns hc)
  have hpos := List.length_pos_iff.2 (hr.expected_ne_nil hw)
  rw [hholds.length_eq, ← hf] at hpos
  exact List.length_pos_iff.1 hpos

theorem Resolves.height_of_readBatch (hr : s.Resolves P) (hw : 0 < s.schema.width) {g : Grammar}
    {rows : List Row} {f : Frame}
    (h : readBatch g s.schema (s.expected P) s.schema.width rows = .ok f) :
    f.height = rows.length ∧ ∀ c ∈ f.columns, c.cells.length = rows.length := by
  obtain ⟨_, columns, hc, _, hf⟩ := hr.readBatch_eq_ok_iff.1 h
  have hcells : ∀ c ∈ f.columns, c.cells.length = rows.length := by
    intro c hm
    rw [hf] at hm
    exact height_of_readColumns hc c (List.mem_filter.1 hm).1
  exact ⟨Frame.height_eq (hr.columns_ne_nil hw h) hcells, hcells⟩

theorem Resolves.conforms_of_readBatch (hr : s.Resolves P) {g : Grammar} {rows : List Row}
    {f : Frame} (h : readBatch g s.schema (s.expected P) s.schema.width rows = .ok f) :
    ∃ found, Schema.ofFrame f = .ok found ∧ (s.expected P).Conforms found := by
  obtain ⟨_, columns, hc, hm, hf⟩ := hr.readBatch_eq_ok_iff.1 h
  subst hf
  have hholds := holds_restrict (fields_expected s P) (holds_of_readColumns hc)
  rw [← missingField?_restrict] at hm
  have hfound := Schema.ofFrame_of_holds hholds hr.nodup_expected
  refine ⟨_, hfound, ?_⟩
  exact (Frame.conforms_iff hr.nodup_expected (Frame.labels_of_holds hholds) hfound).2
    ⟨missingField?_none_iff.1 hm, types_known hholds⟩

/-- A file whose first record has a cell for every field has a field, as no record is without cells.
-/
theorem width_pos_of_batches? {file : Except SourceFault ByteArray} {batches : List (List Row)}
    (hb : s.batches? file = some batches)
    (hfirst : ∀ row ∈ batches.flatten.head?, row.length = s.schema.width) (hne : batches ≠ []) :
    0 < s.schema.width := by
  obtain ⟨batch, rest, hcons⟩ := List.exists_cons_of_ne_nil hne
  subst hcons
  have hbounded := bounded_of_batches? hb batch List.mem_cons_self
  obtain ⟨row, others, hrows⟩ := List.exists_cons_of_ne_nil hbounded.ne_nil
  subst hrows
  have hrow : row ≠ [] := by
    intro hnil
    exact hbounded.cells (by simp [hnil])
  rw [← hfirst row rfl]
  exact List.length_pos_iff.2 hrow

variable {files : String → Except SourceFault ByteArray} {fs : List Frame}

theorem conforms_of_scan (h : (s.scan files P).result = .ok fs) :
    ∀ f ∈ fs, f.Conforms (s.expected P) s.config.batchSize := by
  obtain ⟨hr, batches, hb, hfirst, hf⟩ := scan_eq_ok_iff_batches.1 h
  intro f hm
  obtain ⟨batch, hbatch, hread⟩ := exists_of_mem_right hf hm
  have hbounded := bounded_of_batches? hb batch hbatch
  have hw := width_pos_of_batches? hb hfirst (List.ne_nil_of_mem hbatch)
  obtain ⟨hheight, hcells⟩ := hr.height_of_readBatch hw hread
  refine ⟨hr.conforms_of_readBatch hread, ?_, ?_, ?_⟩
  · rw [hheight]
    exact List.length_pos_iff.2 hbounded.ne_nil
  · rw [hheight]
    exact hbounded.height
  · rw [hheight]
    exact hcells

end CsvSource

namespace Plan
variable {path : String} {bound : Schema} {source : CsvSource} {columns : ScanColumns} {p : Plan}

theorem schema_of_buildScan (h : (buildScan path bound source columns).result = .ok p) :
    p.source = source ∧ p.schema = source.schema := by
  cases columns with
  | text text => cases h
  | names names =>
    rw [buildScan] at h
    split at h
    · next hs =>
      split at h
      · cases h
      · cases h
        exact ⟨rfl, hs.symm⟩
    · cases h

/-- Every frame of a scan node's source conforms to the fields of the node that are asked for. -/
theorem scan_conforms (hp : (buildScan path bound source columns).result = .ok p)
    (files : String → Except Csv.SourceFault ByteArray) (P : List String) {fs : List Frame}
    (h : (p.source.scan files P).result = .ok fs) :
    ∀ f ∈ fs, f.Conforms ⟨p.schema.fields.filter fun g => CsvSource.asks P g.name⟩
      p.source.config.batchSize := by
  obtain ⟨hsource, hschema⟩ := schema_of_buildScan hp
  rw [hsource] at h ⊢
  rw [hschema]
  exact CsvSource.conforms_of_scan h

private def annotated : CsvSource :=
  ⟨⟨[⟨"a", .int64, false⟩, ⟨"b", .utf8, true⟩]⟩, "n.csv", ⟨2, false, ",", by decide⟩⟩

/-- A text that is missing stands where the node allows it. -/
theorem conforms_with_missing_text : ∃ p fs,
    (buildScan "n.csv" annotated.schema annotated (.names [])).result = .ok p ∧
    (p.source.scan (CsvSource.everywhere "1,x\n2,\n3,y\n") ["b"]).result = .ok fs ∧
    fs.map Frame.rows = [[[.text "x"], [.missing]], [[.text "y"]]] ∧
    ∀ f ∈ fs, f.Conforms ⟨[⟨"b", .utf8, true⟩]⟩ 2 := by
  have hp : (buildScan "n.csv" annotated.schema annotated (.names [])).result =
      .ok (.scan "n.csv" annotated.schema annotated []) := rfl
  have hscan : (annotated.scan (CsvSource.everywhere "1,x\n2,\n3,y\n") ["b"]).result =
      .ok [⟨[⟨.text "b", "string", [.text "x", .missing]⟩]⟩, ⟨[⟨.text "b", "string", [.text "y"]⟩]⟩] := by
    decide +kernel
  exact ⟨_, _, hp, hscan, rfl, scan_conforms hp _ _ hscan⟩

end Plan
end QueryPlan
