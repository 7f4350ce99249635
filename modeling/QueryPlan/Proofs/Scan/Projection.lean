import QueryPlan.Proofs.Scan.Content
/-!
# Reading some of the columns

Asking for some of the columns gives, batch by batch, what asking for all gives, without the other
columns. All columns are converted in either case, so the failures are the same too, but for a cell
missing in a column that is not asked for. Neither the order nor the repetition of names matters.
-/
namespace QueryPlan.CsvSource
open Csv
variable {s : CsvSource} {P : List String}

private theorem missingField?_of_all_none {frame : Frame}
    (h : missingField? frame (s.expected []) = none) : missingField? frame (s.expected P) = none := by
  rw [missingField?_expected, List.find?_eq_none] at h ⊢
  intro f hf hq
  exact h f hf (by simpa using (Bool.and_eq_true_iff.1 hq).2)

/-- The first gap among all columns is the first among those asked for, if it is one of them. -/
private theorem missingField?_of_all_some {frame : Frame} {f : Field}
    (h : missingField? frame (s.expected []) = some f) (ha : asks P f.name = true) :
    missingField? frame (s.expected P) = some f := by
  rw [missingField?_expected, List.find?_eq_some_iff_append] at h ⊢
  obtain ⟨hf, before, after, hs, hb⟩ := h
  refine ⟨?_, before, after, hs, ?_⟩
  · rw [ha, Bool.true_and]
    simpa using hf
  · intro f' hf'
    have hq := hb f' hf'
    rw [asks_nil, Bool.true_and] at hq
    rw [Bool.not_and, hq, Bool.or_true]

private theorem restrict_restrict {columns : List Column} (hP : P ≠ [])
    (h : List.Forall₂ Column.Holds s.schema.fields columns) :
    (Frame.restrict ⟨columns⟩ (s.expected []).names).restrict P =
      Frame.restrict ⟨columns⟩ (s.expected P).names := by
  unfold Frame.restrict
  rw [List.filter_filter]
  congr 1
  apply List.filter_congr
  intro c hc
  obtain ⟨f, hm, hl⟩ := exists_of_mem_right h hc
  rw [hl.label, Label.name, contains_names_filter (fields_expected s []) hm,
    contains_names_filter (fields_expected s P) hm, asks_nil, Bool.and_true, asks]
  simp [hP]

private theorem readBatch_projection {g : Grammar} {fileWidth : Nat} {rows : List Row}
    (hall : s.Resolves []) (hr : s.Resolves P) (hP : P ≠ []) :
    (∀ f, readBatch g s.schema (s.expected []) fileWidth rows = .ok f →
      readBatch g s.schema (s.expected P) fileWidth rows = .ok (f.restrict P)) ∧
    ∀ e, readBatch g s.schema (s.expected []) fileWidth rows = .error e →
      ¬ (∃ c, c ∉ P ∧ e = .source (.missingValue c)) →
      readBatch g s.schema (s.expected P) fileWidth rows = .error e := by
  cases hc : readColumns g s.schema fileWidth rows with
  | error e =>
    rw [readBatch_of_columns_error hc, readBatch_of_columns_error hc]
    exact ⟨fun f h => (by cases h), fun e' h _ => h⟩
  | ok columns =>
    by_cases hw : fileWidth = s.schema.width
    · subst hw
      rw [readBatch_of_columns (fields_expected s []) hall.nodup_expected hc,
        readBatch_of_columns (fields_expected s P) hr.nodup_expected hc]
      cases hm : missingField? ⟨columns⟩ (s.expected []) with
      | none =>
        rw [missingField?_of_all_none hm]
        refine ⟨fun f h => ?_, fun e h _ => (by cases h)⟩
        cases h
        exact congrArg Except.ok (restrict_restrict hP (holds_of_readColumns hc)).symm
      | some f =>
        -- the gap that is reported is the first one, so it is the first among fewer columns too
        refine ⟨fun f' h => (by cases h), fun e h he => ?_⟩
        cases h
        by_cases ha : asks P f.name = true
        · rw [missingField?_of_all_some hm ha]
        · exact absurd ⟨f.name, fun hn => ha ((asks_iff hP).2 hn), rfl⟩ he
    · rw [readBatch_of_width hc hw, readBatch_of_width hc hw]
      exact ⟨fun f h => (by cases h), fun e h _ => h⟩

private theorem read_projection {file : Except SourceFault ByteArray}
    (hall : s.Resolves []) (hr : s.Resolves P) (hP : P ≠ []) :
    (∀ fs, s.read (s.expected []) file = .ok fs →
      s.read (s.expected P) file = .ok (fs.map (·.restrict P))) ∧
    ∀ e, s.read (s.expected []) file = .error e →
      ¬ (∃ c, c ∉ P ∧ e = .source (.missingValue c)) → s.read (s.expected P) file = .error e := by
  cases ht : s.text? file with
  | none =>
    obtain ⟨fault, hf⟩ := read_of_text_none ht
    rw [hf, hf]
    exact ⟨fun fs h => (by cases h), fun e h _ => h⟩
  | some dt =>
    obtain ⟨d, text⟩ := dt
    rw [read_of_text ht, read_of_text ht]
    apply mapM_follows
    · intro batch _ f hf
      obtain ⟨rows, rfl, hf⟩ := bind_eq_ok_iff.1 hf
      exact (readBatch_projection hall hr hP).1 f hf
    · intro batch _ e he hs
      rcases bind_eq_error_iff.1 he with rfl | ⟨rows, rfl, he⟩
      · rfl
      · exact (readBatch_projection hall hr hP).2 e he hs

private theorem height_restrict {columns : List Column} {height : Nat} {names : List String}
    (h : ∀ c ∈ columns, c.cells.length = height)
    (hne : (Frame.restrict ⟨columns⟩ names).columns ≠ []) :
    (Frame.restrict ⟨columns⟩ names).height = height := by
  unfold Frame.height
  split
  · next hc => exact absurd hc hne
  · next c cs hc =>
    have hm : c ∈ (Frame.restrict ⟨columns⟩ names).columns := hc ▸ List.mem_cons_self
    exact h c (List.mem_filter.1 hm).1

private theorem shape_of_read {file : Except SourceFault ByteArray} {fs : List Frame}
    (hall : s.Resolves []) (hP : P ≠ []) (hm : ∀ n ∈ P, n ∈ s.schema.names)
    (h : s.read (s.expected []) file = .ok fs) :
    ∀ f ∈ fs, (f.restrict P).labels = (s.projected P).map Label.text ∧
      (f.restrict P).height = f.height := by
  intro f hf
  obtain ⟨d, text, -, hfs⟩ := read_eq_ok_iff.1 h
  obtain ⟨batch, -, rows, -, hb⟩ := exists_of_mem_right hfs hf
  obtain ⟨-, columns, hc, -, rfl⟩ := hall.readBatch_eq_ok_iff.1 hb
  have hh := height_of_readColumns hc
  have hlabels := labels_restrict (P := P) (holds_of_readColumns hc)
  have hne : (Frame.restrict ⟨columns⟩ (s.expected P).names).columns ≠ [] := by
    intro hnil
    obtain ⟨n, hn⟩ := List.exists_mem_of_ne_nil P hP
    have hp : n ∈ s.projected P :=
      List.mem_filter.2 ⟨hm n hn, (asks_iff hP).2 hn⟩
    rw [Frame.labels, hnil] at hlabels
    rw [List.map_eq_nil_iff.1 hlabels.symm] at hp
    cases hp
  have hall' : (Frame.restrict ⟨columns⟩ (s.expected []).names).columns ≠ [] := by
    intro hnil
    apply hne
    rw [← restrict_restrict hP (holds_of_readColumns hc), Frame.restrict, hnil]
    rfl
  rw [restrict_restrict hP (holds_of_readColumns hc)]
  exact ⟨hlabels, by rw [height_restrict hh hne, height_restrict hh hall']⟩

/-- The names of a projection matter as a set. -/
private theorem scan_congr {files : String → Except SourceFault ByteArray} {Q : List String}
    (hr : s.Resolves P) (hP : P ≠ []) (hQ : ∀ n, n ∈ Q ↔ n ∈ P) :
    s.scan files Q = s.scan files P := by
  obtain ⟨m, hm⟩ := List.exists_mem_of_ne_nil P hP
  have hQne : Q ≠ [] := List.ne_nil_of_mem ((hQ m).2 hm)
  have hrQ : s.Resolves Q := ⟨fun n hn => hr.1 n ((hQ n).1 hn), fun h => absurd h hQne⟩
  have hasks : asks Q = asks P := by
    funext n
    rw [Bool.eq_iff_iff, asks_iff hQne, asks_iff hP, hQ]
  have he : s.expected Q = s.expected P := by
    rw [expected, hasks, expected]
  have hp : s.projected Q = s.projected P := by
    rw [← names_expected, he, names_expected]
  rw [hrQ.scan_eq, hr.scan_eq, he, opened, opened, hp]

/-- Asking for some of the columns gives the batches of all columns, each without the columns that
are not asked for; and it fails as asking for all does, unless that failed for a cell missing in a
column that is not asked for. The order and the repetition of the names do not matter. -/
theorem scan_projection (s : CsvSource) (files : String → Except SourceFault ByteArray)
    (P : List String) (hd : s.schema.names.Nodup) (hP : P ≠ [])
    (hm : ∀ n ∈ P, n ∈ s.schema.names) :
    (∀ fs, (s.scan files []).result = .ok fs →
      (s.scan files P).result = .ok (fs.map (·.restrict P)) ∧
        ∀ f ∈ fs, (f.restrict P).labels = (s.projected P).map Label.text ∧
          (f.restrict P).height = f.height) ∧
    (∀ e, (s.scan files []).result = .error e →
      (∀ c, c ∉ P → e ≠ .read s.path (.source (.missingValue c))) →
      (s.scan files P).result = .error e) ∧
    ∀ Q, (∀ n, n ∈ Q ↔ n ∈ P) → s.scan files Q = s.scan files P := by
  have hall : s.Resolves [] := resolves_of_nodup hd (by simp)
  have hr : s.Resolves P := resolves_of_nodup hd hm
  refine ⟨?_, ?_, fun Q hQ => scan_congr hr hP hQ⟩
  · intro fs h
    obtain ⟨-, hread⟩ := scan_eq_ok_iff.1 h
    exact ⟨scan_eq_ok_iff.2 ⟨hr, (read_projection hall hr hP).1 fs hread⟩,
      shape_of_read hall hP hm hread⟩
  · intro e h he
    obtain ⟨e', rfl, hread⟩ := hall.scan_eq_error_iff.1 h
    refine hr.scan_eq_error_iff.2 ⟨e', rfl, (read_projection hall hr hP).2 e' hread ?_⟩
    rintro ⟨c, hc, rfl⟩
    exact he c hc rfl

def pairs : CsvSource :=
  ⟨⟨[⟨"a", .utf8, true⟩, ⟨"b", .int64, false⟩]⟩, "t.csv", .standard⟩

/-- The second of two columns, where the first lacks a cell. -/
theorem scan_projection_second_column :
    pairs.schema.names.Nodup ∧ ["b"] ≠ [] ∧ (∀ n ∈ ["b"], n ∈ pairs.schema.names) ∧
      (pairs.scan (everywhere "x,1\n,2\n") ["b"]).result =
        .ok [⟨[⟨.text "b", "int64", [.integer 1, .integer 2]⟩]⟩] := by
  have hd : pairs.schema.names.Nodup := by decide
  have hm : ∀ n ∈ ["b"], n ∈ pairs.schema.names := by decide
  have hall : (pairs.scan (everywhere "x,1\n,2\n") []).result =
      .ok [⟨[⟨.text "a", "string", [.text "x", .missing]⟩,
        ⟨.text "b", "int64", [.integer 1, .integer 2]⟩]⟩] := by
    decide +kernel
  have h := scan_projection pairs (everywhere "x,1\n,2\n") ["b"] hd (by decide) hm
  exact ⟨hd, by decide, hm, (h.1 _ hall).1⟩

end QueryPlan.CsvSource
