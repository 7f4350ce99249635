import QueryPlan.Plan.Draft
/-!
# Queries

A query is a plan that is extended step by step: select columns, filter rows, aggregate groups. Each
step yields a new query over a larger plan and leaves the old one as it was. Bare texts name columns
in a list of columns and in a list of groups.
-/
namespace QueryPlan

structure Query where
  plan : Plan

namespace Query

def schema (q : Query) : Schema :=
  q.plan.schema

def select (q : Query) (items : List Draft) : Outcome PlanError Query :=
  (q.plan.projectDrafts (items.map Draft.asColumn)).map Query.mk

def filter (q : Query) (predicate : Draft) : Outcome PlanError Query :=
  (q.plan.selectDraft predicate).map Query.mk

def aggregate (q : Query) (groups aggregates : List Draft) : Outcome PlanError Query :=
  (q.plan.aggregateDrafts (groups.map Draft.asColumn) aggregates).map Query.mk

def explain (q : Query) : String :=
  q.plan.explain

def shown (q : Query) : String :=
  "DataFrame(" ++ q.plan.display ++ ")"

end Query
end QueryPlan
