import QueryPlan.Context
import QueryPlan.Proofs.Plan.Building
/-!
# Steps of a query

A query grows by steps. A step puts one node over the plan, and all that it takes from the plan is
the schema: over another plan of the same schema the same step logs the same records and puts the
same node. A run of steps makes one query after another, and the plan of the last one consists of
the nodes that were put on the first.
-/
namespace QueryPlan

inductive Step where
  | select (items : List Draft)
  | filter (predicate : Draft)
  | aggregate (groups aggregates : List Draft)
  deriving DecidableEq, Repr

structure Made where
  log : List LogRecord
  query : Query

namespace Query

def step (q : Query) : Step → Outcome PlanError Query
  | .select items => q.select items
  | .filter predicate => q.filter predicate
  | .aggregate groups aggregates => q.aggregate groups aggregates

def run (q : Query) : List Step → Except PlanError (List Made)
  | [] => .ok []
  | s :: rest => do
    let next ← (q.step s).result
    let more ← next.run rest
    return ⟨(q.step s).log, next⟩ :: more

def last (q : Query) : List Made → Query
  | [] => q
  | m :: rest => m.query.last rest

def displays (q : Query) : List String :=
  q.plan.nodes.map Plan.display

variable {q r : Query} {s : Step} {log : List LogRecord}

theorem map_mk_eq_iff {o : Outcome PlanError Plan} :
    o.map Query.mk = ⟨log, .ok r⟩ ↔ o = ⟨log, .ok r.plan⟩ := by
  cases o with
  | mk l x =>
    cases x with
    | error e => simp [Outcome.map, Except.map]
    | ok p =>
      cases r
      simp [Outcome.map, Except.map]

theorem supports_of_step (h : q.step s = ⟨log, .ok r⟩) :
    q.plan.Supports r.plan ∧ log = r.plan.records := by
  cases s with
  | select items => exact Plan.supports_of_projectDrafts (map_mk_eq_iff.1 h)
  | filter predicate => exact Plan.supports_of_selectDraft (map_mk_eq_iff.1 h)
  | aggregate groups aggregates => exact Plan.supports_of_aggregateDrafts (map_mk_eq_iff.1 h)

theorem plan_of_filter {predicate : Draft} (h : q.step (.filter predicate) = ⟨log, .ok r⟩) :
    ∃ e, r.plan = .selection q.plan e := by
  obtain ⟨e, -, h⟩ := Plan.selectDraft_eq_iff.1 (map_mk_eq_iff.1 h)
  obtain ⟨-, hr, -⟩ := Plan.buildSelection_eq_iff.1 h
  exact ⟨e, hr⟩

theorem schema_of_filter {predicate : Draft} (h : q.step (.filter predicate) = ⟨log, .ok r⟩) :
    r.schema = q.schema := by
  obtain ⟨e, hr⟩ := plan_of_filter h
  rw [schema, hr]
  rfl

/-- Over a plan of the same schema a step fails in the same way, or it logs the same records and puts
the same node. -/
theorem step_eq_map_onto {q' : Query} (hs : q'.schema = q.schema) (s : Step) :
    q'.step s = (q.step s).map fun r => ⟨q'.plan.onto r.plan⟩ := by
  cases s with
  | select items =>
    rw [step, step, select, select, Plan.projectDrafts_onto hs, Outcome.map_map, Outcome.map_map]
  | filter predicate =>
    rw [step, step, filter, filter, Plan.selectDraft_onto hs, Outcome.map_map, Outcome.map_map]
  | aggregate groups aggregates =>
    rw [step, step, aggregate, aggregate, Plan.aggregateDrafts_onto hs, Outcome.map_map,
      Outcome.map_map]

theorem step_onto {q' : Query} (hs : q'.schema = q.schema) (h : q.step s = ⟨log, .ok r⟩) :
    q'.step s = ⟨log, .ok ⟨q'.plan.onto r.plan⟩⟩ := by
  rw [step_eq_map_onto hs, h]
  rfl

theorem schema_of_step_onto {q' : Query} (h : q.step s = ⟨log, .ok r⟩) (hs : q'.schema = q.schema) :
    (q'.plan.onto r.plan).schema = r.plan.schema := by
  obtain ⟨hr, -⟩ := supports_of_step h
  cases hp : r.plan with
  | scan | projection | aggregate => rfl
  | selection =>
    rw [hp] at hr
    cases hr
    exact hs

theorem run_cons_eq_ok_iff {rest : List Step} {made : List Made} :
    q.run (s :: rest) = .ok made ↔
      ∃ m more, q.step s = ⟨m.log, .ok m.query⟩ ∧ m.query.run rest = .ok more ∧
        made = m :: more := by
  rw [run, bind_eq_ok_iff]
  constructor
  · rintro ⟨next, hn, h⟩
    obtain ⟨more, hm, h⟩ := bind_eq_ok_iff.1 h
    cases h
    exact ⟨⟨(q.step s).log, next⟩, more, by rw [← hn], hm, rfl⟩
  · rintro ⟨m, more, hs, hm, rfl⟩
    rw [hs]
    exact ⟨m.query, rfl, bind_eq_ok_iff.2 ⟨more, hm, rfl⟩⟩

/-- The plan that a run ends with has the nodes of the run on top of those it started from. -/
theorem nodes_last {steps : List Step} {made : List Made} (h : q.run steps = .ok made) :
    (q.last made).plan.nodes = (made.map (·.query.plan)).reverse ++ q.plan.nodes := by
  induction steps generalizing q made with
  | nil =>
    cases h
    rfl
  | cons s rest ih =>
    obtain ⟨m, more, hs, hm, rfl⟩ := run_cons_eq_ok_iff.1 h
    have hnodes := (supports_of_step hs).1.nodes
    rw [last, ih hm, hnodes]
    simp

end Query
end QueryPlan
