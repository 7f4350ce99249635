import QueryPlan.Proofs.Expr.Refusal
import QueryPlan.Proofs.Query.Opening
import QueryPlan.Proofs.Scan.Resolution
/-!
# Projections that are refused

Whether a projection is refused depends on names alone: a name of it is carried by no field or by
several, or it is empty and a name of the schema repeats. The file is not looked at, and nothing is
logged. A scan is built under the same condition, so that what it was built with is not refused later.
-/
namespace QueryPlan

namespace Schema
variable {s : Schema} {u : UnknownColumn}

theorem reports_iff {name : String} :
    s.resolve name = .error u ↔ u.column = name ∧ s.Reports u := by
  rw [← refuses_singleton_iff]
  constructor
  · rintro ⟨hr, before, after, hsplit, -⟩
    have hmem : u.column ∈ [name] := by simp [hsplit]
    exact ⟨List.mem_singleton.1 hmem, hr⟩
  · rintro ⟨rfl, hr⟩
    exact ⟨hr, [], [], rfl, by simp⟩

end Schema

namespace CsvSource
variable {s : CsvSource} {P : List String} {u : UnknownColumn} {us : List UnknownColumn}
  {files : String → Except Csv.SourceFault ByteArray}

/-- What is told of a projection that is refused: its columns that do not resolve, each once, or the
first one of the schema if all are asked for. -/
structure Tells (s : CsvSource) (P : List String) (us : List UnknownColumn) : Prop where
  reports : ∀ u ∈ us, s.schema.Reports u
  nodup : (us.map (·.column)).Nodup
  mem_iff : P ≠ [] → ∀ n, n ∈ us.map (·.column) ↔ n ∈ P ∧ s.schema.names.count n ≠ 1
  first : P = [] → ∃ u, us = [u] ∧ s.schema.Refuses s.schema.names u

theorem reports_of_mem_unresolved (h : u ∈ s.unresolved P) : s.schema.Reports u := by
  rw [unresolved, List.mem_filterMap] at h
  obtain ⟨name, -, h⟩ := h
  cases hr : s.schema.resolve name with
  | ok f => simp [hr] at h
  | error e =>
    obtain rfl : e = u := by simpa [hr] using h
    exact (Schema.reports_iff.1 hr).2

theorem columns_unresolved : (s.unresolved P).map (·.column) =
    P.eraseDups.filter fun n => s.schema.names.count n ≠ 1 := by
  rw [unresolved, List.map_filterMap, ← List.filterMap_eq_filter]
  apply List.filterMap_congr
  intro name _
  cases hr : s.schema.resolve name with
  | ok f =>
    have hone := Schema.exists_resolve_iff.1 ⟨f, hr⟩
    simp [Option.guard, hone]
  | error e =>
    obtain ⟨rfl, hreports⟩ := Schema.reports_iff.1 hr
    simp [Option.guard, hreports.unresolved]

/-- A projection does not resolve for its own names, or for those of the schema if it is empty. -/
theorem not_resolves_iff : ¬ s.Resolves P ↔
    (∃ n ∈ P, s.schema.names.count n ≠ 1) ∨ P = [] ∧ ¬ s.schema.names.Nodup := by
  rw [Resolves, not_and_or]
  simp

theorem projected_nil : s.projected [] = s.schema.names :=
  List.filter_eq_self.2 fun _ _ => rfl

theorem exists_tells (h : ¬ s.Resolves P) : ∃ u us, s.Tells P (u :: us) ∧
    ∀ files, s.scan files P = .fail (.unresolved u us) := by
  by_cases hP : P = []
  · subst hP
    have hrepeats : ∃ n ∈ s.schema.names, s.schema.names.count n ≠ 1 := by
      by_contra hall
      refine h ⟨by simp, fun _ => List.nodup_iff_count_eq_one.2 fun n hn => ?_⟩
      by_contra hn'
      exact hall ⟨n, hn, hn'⟩
    obtain ⟨u, hu⟩ := Schema.exists_refuses_iff.2 hrepeats
    refine ⟨u, [], ⟨?_, by simp, fun h => absurd rfl h, fun _ => ⟨u, rfl, hu⟩⟩, fun files => ?_⟩
    · simpa using hu.toReports
    · rw [← projected_nil, ← Schema.select_eq_error_iff] at hu
      unfold scan
      rw [unresolved_eq_nil_iff.2 (by simp)]
      dsimp only
      rw [hu]
  · cases hu : s.unresolved P with
    | nil => exact absurd ⟨unresolved_eq_nil_iff.1 hu, fun h => absurd h hP⟩ h
    | cons u us =>
      have hcolumns : (s.unresolved P).map (·.column) = _ := columns_unresolved
      rw [hu] at hcolumns
      refine ⟨u, us, ⟨fun v hv => reports_of_mem_unresolved (hu ▸ hv), ?_, fun _ n => ?_,
        fun h => absurd h hP⟩, fun files => ?_⟩
      · rw [hcolumns]
        exact (nodup_eraseDups P).filter _
      · rw [hcolumns, List.mem_filter, List.mem_eraseDups, decide_eq_true_iff]
      · unfold scan
        rw [hu]

theorem Resolves.not_refused (h : s.Resolves P) :
    (s.scan files P).result ≠ .error (.unresolved u us) := by
  rw [Ne, h.scan_eq_error_iff]
  rintro ⟨e, he, -⟩
  cases he

theorem refused_iff :
    (∃ u us, (s.scan files P).result = .error (.unresolved u us)) ↔ ¬ s.Resolves P := by
  constructor
  · rintro ⟨u, us, h⟩ hr
    exact hr.not_refused h
  · intro h
    obtain ⟨u, us, -, hscan⟩ := exists_tells h
    exact ⟨u, us, by rw [hscan]; rfl⟩

theorem resolves_of_buildScan {path : String} {bound : Schema} {log : List LogRecord} {p : Plan}
    (hP : P ≠ []) (h : Plan.buildScan path bound s (.names P) = ⟨log, .ok p⟩) :
    p.source.Resolves P := by
  obtain ⟨_, hnames, rfl, hc, rfl, -⟩ := Plan.buildScan_eq_iff.1 h
  cases hnames
  exact ⟨hc, fun h => absurd h hP⟩

theorem resolves_of_csv {c : Context} {schema : Schema} {path : String} {log : List LogRecord}
    {q : Query} (h : c.csv schema path = ⟨log, .ok q⟩) : q.plan.source.Resolves [] := by
  obtain ⟨hd, hplan, -⟩ := Context.csv_eq_ok_iff.1 h
  rw [hplan]
  exact ⟨by simp, fun _ => hd⟩

/-- A projection is refused for its names alone, before the file is looked at. What a scan was built
with is not refused, and neither are all columns of a file that was opened in a context. -/
theorem scan_refusal (s : CsvSource) (P : List String) :
    (∀ files, (∃ u us, (s.scan files P).result = .error (.unresolved u us)) ↔
      (∃ n ∈ P, s.schema.names.count n ≠ 1) ∨ P = [] ∧ ¬ s.schema.names.Nodup) ∧
    ((∃ n ∈ P, s.schema.names.count n ≠ 1) ∨ P = [] ∧ ¬ s.schema.names.Nodup →
      ∃ u us, s.Tells P (u :: us) ∧ ∀ files, s.scan files P = .fail (.unresolved u us)) ∧
    (∀ (path : String) (bound : Schema) (log : List LogRecord) (p : Plan), P ≠ [] →
      Plan.buildScan path bound s (.names P) = ⟨log, .ok p⟩ →
      ∀ files u us, (p.source.scan files P).result ≠ .error (.unresolved u us)) ∧
    ∀ (c : Context) (path : String) (log : List LogRecord) (q : Query),
      c.csv s.schema path = ⟨log, .ok q⟩ →
      ∀ files u us, (q.plan.source.scan files []).result ≠ .error (.unresolved u us) := by
  simp only [← not_resolves_iff]
  exact ⟨fun _ => refused_iff, exists_tells,
    fun _ _ _ _ hP h _ _ _ => (resolves_of_buildScan hP h).not_refused,
    fun _ _ _ _ h _ _ _ => (resolves_of_csv h).not_refused⟩

private def homonyms : CsvSource :=
  ⟨⟨[⟨"a", .int64, false⟩, ⟨"a", .utf8, false⟩, ⟨"b", .utf8, false⟩]⟩, "t.csv", .standard⟩

/-- A scan of the name that does not repeat is built and not refused. All columns are refused for the
first name, and a file of the last column alone is opened. -/
theorem homonyms_refused : ∃ log p u log' q,
    Plan.buildScan "t.csv" homonyms.schema homonyms (.names ["b"]) = ⟨log, .ok p⟩ ∧
    (∀ files u us, (p.source.scan files ["b"]).result ≠ .error (.unresolved u us)) ∧
    homonyms.Tells [] [u] ∧ u.column = "a" ∧
    (∀ files, homonyms.scan files [] = .fail (.unresolved u [])) ∧
    Context.csv ⟨.standard⟩ ⟨[⟨"b", .utf8, false⟩]⟩ "u.csv" = ⟨log', .ok q⟩ ∧
    ∀ files u us, (q.plan.source.scan files []).result ≠ .error (.unresolved u us) := by
  have hbuilt : Plan.buildScan "t.csv" homonyms.schema homonyms (.names ["b"]) = ⟨_, .ok _⟩ := rfl
  have hopened : Context.csv ⟨.standard⟩ ⟨[⟨"b", .utf8, false⟩]⟩ "u.csv" = ⟨_, .ok _⟩ := rfl
  obtain ⟨u, us, htells, hscan⟩ := (scan_refusal homonyms []).2.1 (.inr ⟨rfl, by decide⟩)
  obtain ⟨v, hv, hfirst⟩ := htells.first rfl
  obtain ⟨rfl, rfl⟩ := List.cons.inj hv
  have hcolumn : u.column = "a" := by
    rw [← Schema.select_eq_error_iff] at hfirst
    have hselect : homonyms.schema.select homonyms.schema.names =
      .error ⟨"a", ["a", "a", "b"], true⟩ := rfl
    rw [hselect] at hfirst
    rw [← Except.error.inj hfirst]
  exact ⟨_, _, u, _, _, hbuilt, (scan_refusal homonyms ["b"]).2.2.1 _ _ _ _ (by simp) hbuilt, htells,
    hcolumn, hscan, hopened,
    (scan_refusal ⟨⟨[⟨"b", .utf8, false⟩]⟩, "u.csv", .standard⟩ []).2.2.2 _ _ _ _ hopened⟩

end CsvSource
end QueryPlan
