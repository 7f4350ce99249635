import QueryPlan.Proofs.Plan.Pruning
/-!
# Selecting columns

Names select the fields that carry them, from a schema and from a query alike. A query is selected
from by a projection whose expressions are columns, and the schema that is derived for it is the one
that the names select. Where a name does not resolve both are refused the same column.
-/
namespace QueryPlan.Query

theorem schema_select_bare (q : Query) (names : List String) :
    (q.select (names.map .bare)).result.map schema =
      (q.schema.select names).mapError .unknownColumn := by
  rw [select_of_standFor (Draft.standFor_bare names), Plan.buildProjection, Schema.derive_columns,
    schema]
  cases q.plan.schema.select names <;> rfl

/-- Names are selected if each of them resolves, and otherwise the first that does not is refused.
From a selection those names can be selected that it was asked for once, and what they select is what
they select from the schema. All names select the schema itself, if none repeats. A query comes to the
schema that its own schema comes to, or is refused the same column. -/
theorem selection_algebra (s : Schema) (xs ys : List String) :
    ((∃ t, s.select xs = .ok t) ↔ ∀ x ∈ xs, s.names.count x = 1) ∧
    (∀ u, s.select xs = .error u ↔ s.Refuses xs u) ∧
    (∀ t, s.select xs = .ok t → t.names = xs ∧
      ((∃ u, t.select ys = .ok u) ↔ ∀ y ∈ ys, xs.count y = 1) ∧
      ∀ u, t.select ys = .ok u → s.select ys = .ok u) ∧
    (∀ t, s.select s.names = .ok t ↔ s.names.Nodup ∧ t = s) ∧
    ∀ q : Query, q.schema = s →
      (q.select (xs.map .bare)).result.map schema = (s.select xs).mapError .unknownColumn := by
  refine ⟨Schema.exists_select_iff, fun u => Schema.select_eq_error_iff, fun t ht => ?_,
    fun t => Schema.select_names_eq_ok_iff, ?_⟩
  · refine ⟨Schema.names_of_select ht, Schema.exists_select_selected_iff ht, fun u hu => ?_⟩
    exact ((Schema.select_selected_eq_ok_iff ht).1 hu).2
  · rintro q rfl
    exact schema_select_bare q xs

/-- A column that was selected twice is lost, the one beside it is not. -/
theorem selection_algebra_twice :
    let s : Schema := ⟨[⟨"a", .int64, false⟩, ⟨"b", .utf8, true⟩, ⟨"a", .utf8, false⟩,
      ⟨"c", .boolean, false⟩]⟩
    ∃ t u, s.select ["c", "b", "c"] = .ok t ∧ t.names = ["c", "b", "c"] ∧
      t.select ["b"] = .ok u ∧ s.select ["b"] = .ok u ∧ ¬ (∃ v, t.select ["c"] = .ok v) ∧
      ((⟨.ofFile "t.csv" s⟩ : Query).select [.bare "a"]).result.map schema =
        .error (.unknownColumn ⟨"a", ["a", "b", "a", "c"], true⟩) := by
  intro s
  have ht : s.select ["c", "b", "c"] = .ok _ := rfl
  obtain ⟨hnames, hb, hsame⟩ := (selection_algebra s ["c", "b", "c"] ["b"]).2.2.1 _ ht
  obtain ⟨u, hu⟩ := hb.2 (by decide)
  have hc := ((selection_algebra s ["c", "b", "c"] ["c"]).2.2.1 _ ht).2.1
  refine ⟨_, u, ht, hnames, hu, hsame u hu, fun hv => absurd (hc.1 hv) (by decide), ?_⟩
  exact (selection_algebra s ["a"] []).2.2.2.2 ⟨.ofFile "t.csv" s⟩ rfl

end QueryPlan.Query
