import Mathlib.Data.List.Nodup
import QueryPlan.Csv.Scan
import QueryPlan.Proofs.Schema.Selection
/-!
# Resolving a projection

The names of a projection are resolved before the file is looked at. Once they resolve, the scan is
the reading of the file under the schema of the columns that are asked for; otherwise the scan fails
in the same way for every file.
-/
namespace QueryPlan.CsvSource

/-- Whether a projection asks for a name. An empty one asks for all. -/
def asks (P : List String) (name : String) : Bool :=
  P.isEmpty || P.contains name

/-- Every name of the projection names one field, and so does every field when all are asked for. -/
def Resolves (s : CsvSource) (P : List String) : Prop :=
  (∀ n ∈ P, s.schema.names.count n = 1) ∧ (P = [] → s.schema.names.Nodup)

def expected (s : CsvSource) (P : List String) : Schema :=
  ⟨s.schema.fields.filter fun f => asks P f.name⟩

@[simp] theorem asks_nil (name : String) : asks [] name = true := rfl

theorem asks_iff {P : List String} {name : String} (hP : P ≠ []) : asks P name = true ↔ name ∈ P := by
  simp [asks, hP]

theorem fields_expected (s : CsvSource) (P : List String) :
    (s.expected P).fields = s.schema.fields.filter fun f => asks P f.name := rfl

theorem names_expected (s : CsvSource) (P : List String) :
    (s.expected P).names = s.projected P := by
  rw [projected, Schema.names, Schema.names, expected, List.filter_map]
  rfl

theorem unresolved_eq_nil_iff {s : CsvSource} {P : List String} :
    s.unresolved P = [] ↔ ∀ n ∈ P, s.schema.names.count n = 1 := by
  rw [unresolved, List.filterMap_eq_nil_iff]
  constructor
  · intro h n hn
    have hr := h n (List.mem_eraseDups.2 hn)
    rw [← Schema.exists_resolve_iff]
    cases hs : s.schema.resolve n with
    | ok f => exact ⟨f, rfl⟩
    | error e => simp [hs] at hr
  · intro h n hn
    obtain ⟨f, hf⟩ := Schema.exists_resolve_iff.2 (h n (List.mem_eraseDups.1 hn))
    rw [hf]

theorem resolves_of_nodup {s : CsvSource} {P : List String} (hd : s.schema.names.Nodup)
    (hm : ∀ n ∈ P, n ∈ s.schema.names) : s.Resolves P :=
  ⟨fun n hn => List.count_eq_one_of_mem hd (hm n hn), fun _ => hd⟩

theorem Resolves.count_eq_one {s : CsvSource} {P : List String} (h : s.Resolves P) {f : Field}
    (hf : f ∈ s.schema.fields) (ha : asks P f.name = true) : s.schema.names.count f.name = 1 := by
  have hn : f.name ∈ s.schema.names := List.mem_map.2 ⟨f, hf, rfl⟩
  by_cases hP : P = []
  · exact List.count_eq_one_of_mem (h.2 hP) hn
  · exact h.1 _ ((asks_iff hP).1 ha)

theorem Resolves.select_projected {s : CsvSource} {P : List String} (h : s.Resolves P) :
    s.schema.select (s.projected P) = .ok (s.expected P) :=
  Schema.select_filter fun _ hf ha => h.count_eq_one hf ha

theorem Resolves.nodup_expected {s : CsvSource} {P : List String} (h : s.Resolves P) :
    (s.expected P).names.Nodup := by
  rw [List.nodup_iff_count_le_one]
  intro n
  by_cases hn : n ∈ (s.expected P).names
  · obtain ⟨f, hf, rfl⟩ := List.mem_map.1 hn
    obtain ⟨hm, ha⟩ := List.mem_filter.1 hf
    have hs : (s.expected P).names.Sublist s.schema.names := by
      rw [names_expected]
      exact List.filter_sublist
    exact Nat.le_trans (hs.count_le _) (Nat.le_of_eq (h.count_eq_one hm ha))
  · rw [List.count_eq_zero.2 hn]
    exact Nat.zero_le 1

def opened (s : CsvSource) (P : List String) : LogRecord :=
  logged ("Scanning " ++ s.path ++ " for columns " ++ Text.quotedList (s.projected P))

variable {files : String → Except Csv.SourceFault ByteArray}

theorem Resolves.scan_eq {s : CsvSource} {P : List String} (h : s.Resolves P) :
    s.scan files P = (s.scanFile (s.expected P) (files s.path)).after [s.opened P] := by
  unfold scan
  rw [unresolved_eq_nil_iff.2 h.1]
  dsimp only
  rw [h.select_projected]
  rfl

/-- Where the names do not resolve, no file matters and nothing is logged. -/
theorem scan_of_not_resolves {s : CsvSource} {P : List String} (h : ¬ s.Resolves P) :
    ∃ e es, ∀ files, s.scan files P = .fail (.unresolved e es) := by
  unfold scan
  cases hu : s.unresolved P with
  | cons e es => exact ⟨e, es, fun _ => rfl⟩
  | nil =>
    have hc := unresolved_eq_nil_iff.1 hu
    have hP : P = [] := by
      by_contra hP
      exact h ⟨hc, fun hn => absurd hn hP⟩
    subst hP
    have hd : ¬ s.schema.names.Nodup := fun hd => h ⟨hc, fun _ => hd⟩
    rw [List.nodup_iff_count_le_one] at hd
    obtain ⟨n, hn⟩ := not_forall.1 hd
    have hm : n ∈ s.projected [] := by
      have hp : s.projected [] = s.schema.names := List.filter_eq_self.2 fun _ _ => rfl
      rw [hp]
      exact List.count_pos_iff.1 (by omega)
    obtain ⟨e, he⟩ := Schema.select_error_of_count (s := s.schema) hm (by omega)
    refine ⟨e, [], fun files => ?_⟩
    dsimp only
    rw [he]

theorem scan_eq_ok_iff {s : CsvSource} {P : List String} {fs : List Frame} :
    (s.scan files P).result = .ok fs ↔
      s.Resolves P ∧ s.read (s.expected P) (files s.path) = .ok fs := by
  by_cases h : s.Resolves P
  · rw [h.scan_eq, Outcome.result_after, scanFile]
    cases s.read (s.expected P) (files s.path) with
    | error e => simp
    | ok gs => simp [h]
  · obtain ⟨e, es, he⟩ := scan_of_not_resolves h
    rw [he]
    simp [h]

theorem Resolves.scan_eq_error_iff {s : CsvSource} {P : List String} (h : s.Resolves P)
    {e : ScanError} : (s.scan files P).result = .error e ↔
      ∃ e', e = .read s.path e' ∧ s.read (s.expected P) (files s.path) = .error e' := by
  rw [h.scan_eq, Outcome.result_after, scanFile]
  cases s.read (s.expected P) (files s.path) with
  | error e' => simp [eq_comm]
  | ok fs => simp

end QueryPlan.CsvSource
