import QueryPlan.Proofs.Plan.Building
/-!
# Why a node is not built

An expression resolves over a plan unless a leaf of it is to blame, and then it is the leftmost one.
An aggregate is refused for the first of its aggregates that is no aggregation, and else for the
first column of all of its expressions.
-/
namespace QueryPlan
namespace Plan

/-- The column is the leftmost leaf of an expression that does not resolve over a plan. -/
structure Blames (p : Plan) (e : Expr) (u : UnknownColumn) : Prop extends p.schema.Reports u where
  leftmost : ∃ before after, e.leaves = before ++ .column u.column :: after ∧
    ∀ n, .column n ∈ before → p.schema.names.count n = 1

theorem blames_iff {p : Plan} {e : Expr} {u : UnknownColumn} :
    p.Blames e u ↔ p.schema.Refuses e.columns u := by
  constructor
  · rintro ⟨hreports, before, after, hsplit, hb⟩
    refine ⟨hreports, before.filterMap Expr.column?, after.filterMap Expr.column?, ?_, fun n hn => ?_⟩
    · rw [Expr.columns_eq_leaves, hsplit, List.filterMap_append, List.filterMap_cons]
      rfl
    · obtain ⟨leaf, hleaf, hn⟩ := List.mem_filterMap.1 hn
      obtain rfl := Expr.column?_eq_some_iff.1 hn
      exact hb n hleaf
  · rintro ⟨hreports, before, after, hsplit, hb⟩
    rw [Expr.columns_eq_leaves, List.filterMap_eq_append_iff] at hsplit
    obtain ⟨front, back, hleaves, rfl, hback⟩ := hsplit
    obtain ⟨literals, leaf, rest, rfl, hliterals, hleaf, -⟩ := List.filterMap_eq_cons_iff.1 hback
    obtain rfl := Expr.column?_eq_some_iff.1 hleaf
    -- between the columns that resolve and the one to blame there may stand literals
    refine ⟨hreports, front ++ literals, rest, ?_, fun n hn => ?_⟩
    · rw [hleaves, List.append_assoc]
    · rcases List.mem_append.1 hn with hn | hn
      · exact hb n (List.mem_filterMap.2 ⟨_, hn, rfl⟩)
      · cases hliterals _ hn

/-- An expression resolves over a plan exactly when each of its columns is carried by one field, and
otherwise the leftmost column to blame is reported. -/
theorem expression_resolution (p : Plan) (e : Expr) :
    ((∃ f, e.field p.schema = .ok f) ↔ ∀ n ∈ e.columns, p.schema.names.count n = 1) ∧
    ∀ u, e.field p.schema = .error u ↔ p.Blames e u := by
  refine ⟨Expr.exists_field_iff, fun u => ?_⟩
  rw [blames_iff]
  exact Expr.field_eq_error_iff

variable {input : Plan} {groups aggregates : List Expr}

structure AggregateOutcome (input : Plan) (groups aggregates : List Expr) : Prop where
  /-- The first that is no aggregation is refused, whatever the columns are. -/
  refused : (∃ a ∈ aggregates, a.isAggregation = false) →
    ∃ before e after, aggregates = before ++ e :: after ∧
      (∀ a ∈ before, a.isAggregation = true) ∧ e.isAggregation = false ∧
      input.buildAggregate groups aggregates = .fail (.notAggregation e.display)
  unresolved : (∀ a ∈ aggregates, a.isAggregation = true) →
    (∃ n ∈ (groups ++ aggregates).flatMap Expr.columns, input.schema.names.count n ≠ 1) →
    ∃ u, input.schema.Refuses ((groups ++ aggregates).flatMap Expr.columns) u ∧
      input.buildAggregate groups aggregates = .fail (.unknownColumn u)
  built : (∀ a ∈ aggregates, a.isAggregation = true) →
    (∀ n ∈ (groups ++ aggregates).flatMap Expr.columns, input.schema.names.count n = 1) →
    ∃ p warnings, input.buildAggregate groups aggregates =
        ⟨warnings ++ [created ("Aggregate with " ++ toString groups.length ++ " groups and " ++
          toString aggregates.length ++ " aggregates")], .ok p⟩ ∧
      p.schema.width = groups.length + aggregates.length ∧
      List.Forall₂ (fun e f => e.field input.schema = .ok f) (groups ++ aggregates)
        p.schema.fields ∧
      warnings.length ≤ 1 ∧ ∀ w ∈ warnings, w.level = .warning

theorem duplicateWarning_le_one (node : String) (derived : Schema) :
    (duplicateWarning node derived).length ≤ 1 ∧
      ∀ w ∈ duplicateWarning node derived, w.level = .warning := by
  unfold duplicateWarning
  split
  · simp
  · simp

/-- An aggregate is refused for what is no aggregation, else for the first column that does not
resolve, and else it has one field for each of its expressions. -/
theorem aggregate_outcome (input : Plan) (groups aggregates : List Expr) :
    AggregateOutcome input groups aggregates where
  refused := by
    rintro ⟨a, ha, hn⟩
    cases hf : aggregates.find? fun e => !e.isAggregation with
    | none =>
      rw [find?_aggregation_eq_none_iff.1 hf a ha] at hn
      cases hn
    | some e =>
      obtain ⟨he, before, after, hsplit, hb⟩ := List.find?_eq_some_iff_append.1 hf
      refine ⟨before, e, after, hsplit, fun b hm => ?_, by simpa using he, ?_⟩
      · simpa using hb b hm
      · rw [buildAggregate, hf]
  unresolved := by
    intro ha hn
    obtain ⟨u, hu⟩ := Schema.exists_refuses_iff.2 hn
    refine ⟨u, hu, ?_⟩
    rw [buildAggregate_of_aggregations ha, Schema.derive_eq_error_iff.2 hu]
  built := by
    intro ha hn
    obtain ⟨derived, hd⟩ := Schema.exists_derive_iff.2 hn
    obtain ⟨hlength, hlevel⟩ := duplicateWarning_le_one "Aggregate" derived
    have hfields := Schema.derive_eq_ok_iff.1 hd
    refine ⟨.aggregate input groups aggregates derived, _,
      buildAggregate_eq_iff.2 ⟨derived, ha, hd, rfl, rfl⟩, ?_, hfields, hlength, hlevel⟩
    rw [← List.length_append]
    exact hfields.length_eq.symm

end Plan
end QueryPlan
