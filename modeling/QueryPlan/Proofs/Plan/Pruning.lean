import Mathlib.Data.List.Nodup
import QueryPlan.Proofs.Query.Step
/-!
# Narrowing the input of a node

All that a node takes from its input is what the input's schema answers for the columns that the
node's expressions refer to. Over two inputs that agree at these columns the node is built over both,
with the same schema and the same log, or the same column is refused for the same reason. So a query
can be narrowed to the columns that are still needed before the next step.
-/
namespace QueryPlan

/-- Two outcomes of building the same over two inputs: results that are related and one log, or
refusals alike. -/
inductive Outcome.Alike {α : Type} (R : α → α → Prop) :
    Outcome PlanError α → Outcome PlanError α → Prop where
  | built {log : List LogRecord} {a b : α} (h : R a b) : Alike R ⟨log, .ok a⟩ ⟨log, .ok b⟩
  | refused {e e' : UnknownColumn} (h : e.Alike e') :
    Alike R (.fail (.unknownColumn e)) (.fail (.unknownColumn e'))

theorem Outcome.Alike.map {α β : Type} {R : α → α → Prop} {S : β → β → Prop} {f : α → β}
    {o o' : Outcome PlanError α} (h : o.Alike R o') (hf : ∀ a b, R a b → S (f a) (f b)) :
    (o.map f).Alike S (o'.map f) := by
  cases h with
  | built h => exact .built (hf _ _ h)
  | refused h => exact .refused h

namespace Plan

def SameSchema (p q : Plan) : Prop :=
  p.schema = q.schema

variable {p q : Plan}

theorem alike_buildProjection {exprs : List Expr} (h : p.schema.AgreeOn q.schema exprs) :
    (p.buildProjection exprs).Alike SameSchema (q.buildProjection exprs) := by
  have hd := h.alike_derive
  rw [buildProjection, buildProjection]
  generalize p.schema.derive exprs = x, q.schema.derive exprs = y at hd ⊢
  cases hd with
  | found derived => exact .built rfl
  | refused h => exact .refused h

theorem alike_buildAggregate {groups aggregates : List Expr}
    (ha : ∀ e ∈ aggregates, e.isAggregation = true)
    (h : p.schema.AgreeOn q.schema (groups ++ aggregates)) :
    (p.buildAggregate groups aggregates).Alike SameSchema (q.buildAggregate groups aggregates) := by
  have hd := h.alike_derive
  rw [buildAggregate_of_aggregations ha, buildAggregate_of_aggregations ha]
  generalize p.schema.derive (groups ++ aggregates) = x,
    q.schema.derive (groups ++ aggregates) = y at hd ⊢
  cases hd with
  | found derived => exact .built rfl
  | refused h => exact .refused h

theorem alike_buildSelection {predicate : Expr} (h : p.schema.AgreeOn q.schema [predicate]) :
    (p.buildSelection predicate).Alike (fun a b => a.schema = p.schema ∧ b.schema = q.schema)
      (q.buildSelection predicate) := by
  have hf := h.alike_field (List.mem_singleton_self predicate)
  rw [buildSelection, buildSelection]
  generalize predicate.field p.schema = x, predicate.field q.schema = y at hf ⊢
  cases hf with
  | found f => exact .built ⟨rfl, rfl⟩
  | refused h => exact .refused h

/-- What is promised of two inputs: each node is built over both alike, if they agree at the columns
that it refers to. -/
structure BuildsAlike (p q : Plan) : Prop where
  projection : ∀ exprs, p.schema.AgreeOn q.schema exprs →
    (p.buildProjection exprs).Alike SameSchema (q.buildProjection exprs)
  aggregate : ∀ groups aggregates, (∀ e ∈ aggregates, e.isAggregation = true) →
    p.schema.AgreeOn q.schema (groups ++ aggregates) →
    (p.buildAggregate groups aggregates).Alike SameSchema (q.buildAggregate groups aggregates)
  selection : ∀ predicate, p.schema.AgreeOn q.schema [predicate] →
    (p.buildSelection predicate).Alike (fun a b => a.schema = p.schema ∧ b.schema = q.schema)
      (q.buildSelection predicate)

end Plan

namespace Schema
variable {s t : Schema} {names : List String}

theorem derive_columns (s : Schema) (names : List String) :
    s.derive (names.map Expr.column) = s.select names := by
  rw [derive, select, List.mapM_map]
  rfl

theorem agreeAt_of_select (hn : names.Nodup) (h : s.select names = .ok t) :
    ∀ n ∈ names, t.AgreeAt s n := by
  intro n hm
  obtain ⟨f, -, hs⟩ := exists_of_mem_left (select_eq_ok_iff.1 h) hm
  have hc : names.count n = 1 := List.count_eq_one_of_mem hn hm
  exact .inl ⟨f, (resolve_selected_eq_ok_iff h).2 ⟨hc, hs⟩, hs⟩

end Schema

/-- The items of a list of columns stand for some expressions: bare texts for columns. -/
def Draft.StandFor (items : List Draft) (exprs : List Expr) : Prop :=
  items.map Draft.asColumn = exprs.map Expr.draft

theorem Draft.standFor_bare (names : List String) :
    StandFor (names.map bare) (names.map .column) := by
  simp [StandFor, asColumn, Expr.draft]

namespace Query
variable {q r : Query} {names : List String}

theorem select_of_standFor {items : List Draft} {exprs : List Expr}
    (h : Draft.StandFor items exprs) :
    q.select items = (q.plan.buildProjection exprs).map Query.mk := by
  rw [select, h, Plan.projectDrafts_map_draft]

theorem aggregate_of_standFor {groups : List Draft} {gs as : List Expr}
    (h : Draft.StandFor groups gs) :
    q.aggregate groups (as.map Expr.draft) = (q.plan.buildAggregate gs as).map Query.mk := by
  rw [aggregate, h, Plan.aggregateDrafts_map_draft]

theorem filter_draft (predicate : Expr) :
    q.filter predicate.draft = (q.plan.buildSelection predicate).map Query.mk := by
  rw [filter, Plan.selectDraft_draft]

/-- What is promised of a query when it is narrowed to some columns: each step that refers to these
columns only does the same before and after. -/
structure Narrows (r q : Query) (names : List String) : Prop where
  select : ∀ items exprs, Draft.StandFor items exprs →
    (∀ n ∈ exprs.flatMap Expr.columns, n ∈ names) →
    (r.select items).Alike (fun a b => a.schema = b.schema) (q.select items)
  aggregate : ∀ groups gs as, Draft.StandFor groups gs → (∀ a ∈ as, a.isAggregation = true) →
    (∀ n ∈ (gs ++ as).flatMap Expr.columns, n ∈ names) →
    (r.aggregate groups (as.map Expr.draft)).Alike (fun a b => a.schema = b.schema)
      (q.aggregate groups (as.map Expr.draft))
  filter : ∀ predicate : Expr, (∀ n ∈ predicate.columns, n ∈ names) →
    (r.filter predicate.draft).Alike (fun a b => a.schema = r.schema ∧ b.schema = q.schema)
      (q.filter predicate.draft)

theorem narrows_of_agreeAt (h : ∀ n ∈ names, r.schema.AgreeAt q.schema n) : r.Narrows q names where
  select items exprs hi hn := by
    rw [select_of_standFor hi, select_of_standFor hi]
    exact (Plan.alike_buildProjection fun n hm => h n (hn n hm)).map fun _ _ hab => hab
  aggregate groups gs as hg ha hn := by
    rw [aggregate_of_standFor hg, aggregate_of_standFor hg]
    exact (Plan.alike_buildAggregate ha fun n hm => h n (hn n hm)).map fun _ _ hab => hab
  filter predicate hn := by
    rw [filter_draft, filter_draft]
    have ha : r.schema.AgreeOn q.schema [predicate] := by
      intro n hm
      rw [List.flatMap_singleton] at hm
      exact h n (hn n hm)
    exact (Plan.alike_buildSelection ha).map fun _ _ hab => hab

theorem exists_narrows (hn : names.Nodup) (hr : ∀ n ∈ names, ∃ f, q.schema.resolve n = .ok f) :
    ∃ r, (q.select (names.map Draft.bare)).result = .ok r ∧ r.Narrows q names := by
  obtain ⟨t, ht⟩ := Schema.exists_select_iff.2 fun n hm => Schema.exists_resolve_iff.1 (hr n hm)
  have hb := Plan.buildProjection_eq_iff.2 ⟨t, (Schema.derive_columns _ _).trans ht, rfl, rfl⟩
  refine ⟨⟨.projection q.plan (names.map Expr.column) t⟩, ?_, ?_⟩
  · rw [select_of_standFor (Draft.standFor_bare names), hb]
    rfl
  · exact narrows_of_agreeAt (Schema.agreeAt_of_select hn ht)

end Query

namespace Plan

/-- Nodes depend on the columns they refer to and on nothing else, so a query may be narrowed to the
columns that are needed next. -/
theorem column_pruning :
    (∀ p q : Plan, p.BuildsAlike q) ∧
    ∀ (q : Query) (names : List String), names.Nodup →
      (∀ n ∈ names, ∃ f, q.schema.resolve n = .ok f) →
      ∃ r, (q.select (names.map Draft.bare)).result = .ok r ∧ r.Narrows q names := by
  refine ⟨fun p q => ⟨?_, ?_, ?_⟩, fun q names hn hr => Query.exists_narrows hn hr⟩
  · intro exprs h
    exact alike_buildProjection h
  · intro groups aggregates ha h
    exact alike_buildAggregate ha h
  · intro predicate h
    exact alike_buildSelection h

/-- A column that both inputs have beside one that is ambiguous in both. -/
theorem pruning_beside_ambiguous :
    let p := ofFile "p.csv" ⟨[⟨"a", .int64, false⟩, ⟨"b", .utf8, false⟩, ⟨"b", .utf8, true⟩]⟩
    let q := ofFile "q.csv" ⟨[⟨"b", .int64, false⟩, ⟨"c", .utf8, false⟩, ⟨"b", .utf8, false⟩,
      ⟨"a", .int64, false⟩]⟩
    (p.buildProjection [.arith .add (.column "a") (.column "b")]).Alike SameSchema
      (q.buildProjection [.arith .add (.column "a") (.column "b")]) ∧
    ∃ r, (Query.select ⟨q⟩ [.bare "c", .bare "a"]).result = .ok r ∧
      r.Narrows ⟨q⟩ ["c", "a"] := by
  intro p q
  have hagree : p.schema.AgreeOn q.schema [.arith .add (.column "a") (.column "b")] := by
    intro n hn
    rcases List.mem_pair.1 hn with rfl | rfl
    · exact .inl ⟨_, rfl, rfl⟩
    · exact .inr ⟨_, _, rfl, rfl, rfl⟩
  refine ⟨(column_pruning.1 p q).projection _ hagree, column_pruning.2 ⟨q⟩ ["c", "a"] ?_ ?_⟩
  · decide
  · intro n hn
    rcases List.mem_pair.1 hn with rfl | rfl
    · exact ⟨_, rfl⟩
    · exact ⟨_, rfl⟩

end Plan
end QueryPlan
