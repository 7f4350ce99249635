import QueryPlan.Proofs.Plan.Building
/-!
# Filters above and below a node

A filter above a projection or an aggregate may refer to columns that the node passes on. It can be
built there exactly when no other output of the node takes the name of such a column, be it an
operator's name, a function's or a literal's. Then it can be built below the node as well: the
predicate has the same field there, and the node above it the same schema.
-/
namespace QueryPlan

/-- A column that was derived from itself, and whose name nothing else took, answers as before. -/
theorem Schema.resolve_of_derive {s d : Schema} {exprs : List Expr} {name : String}
    (h : s.derive exprs = .ok d) (hm : Expr.column name ∈ exprs) (hc : d.names.count name = 1) :
    ∃ f, d.resolve name = .ok f ∧ s.resolve name = .ok f := by
  obtain ⟨f, hf, hs⟩ := exists_field_of_derive h hm
  have hname : f.name = name := name_of_resolve hs
  have hd := resolve_of_mem hf (hname ▸ hc)
  exact ⟨f, hname ▸ hd, hs⟩

namespace Plan
variable {p node : Plan} {e : Expr}

/-- What is promised of a node with some outputs and of a filter above it: what the outputs are
named, when the filter can be built there, and that it can be built below instead, where `build`
puts the node over it. -/
structure LetsThrough (input node : Plan) (build : Plan → Outcome PlanError Plan)
    (outputs : List Expr) (e : Expr) : Prop where
  names : node.schema.names = outputs.map Expr.fieldName
  above_iff : (∃ above, (node.buildSelection e).result = .ok above) ↔
    ∀ n ∈ e.columns, (outputs.map Expr.fieldName).count n = 1
  below : ∀ above, (node.buildSelection e).result = .ok above →
    ∃ filtered below, (input.buildSelection e).result = .ok filtered ∧
      (build filtered).result = .ok below ∧ below.schema = above.schema ∧
      ∃ f, e.field node.schema = .ok f ∧ e.field input.schema = .ok f

theorem letsThrough {build : Plan → Outcome PlanError Plan} {outputs : List Expr}
    (hd : p.schema.derive outputs = .ok node.schema)
    (hm : ∀ n ∈ e.columns, Expr.column n ∈ outputs)
    (hb : ∀ q, q.schema = p.schema → ∃ r, (build q).result = .ok r ∧ r.schema = node.schema) :
    LetsThrough p node build outputs e := by
  have hnames := Schema.names_of_derive hd
  refine ⟨hnames, ?_, fun above habove => ?_⟩
  · rw [exists_buildSelection_iff, Expr.exists_field_iff, hnames]
  · obtain ⟨f, hf⟩ := exists_buildSelection_iff.1 ⟨above, habove⟩
    have hcount := Expr.exists_field_iff.1 ⟨f, hf⟩
    -- no column of the predicate is captured, so each answers below as it does above
    have halike : ResolvedAlike (e.field node.schema) (e.field p.schema) := by
      apply Expr.alike_field
      intro n hn
      obtain ⟨g, hnode, hp⟩ := Schema.resolve_of_derive hd (hm n hn) (hcount n hn)
      rw [hnode, hp]
      exact .found g
    have hbelow := halike.eq_ok hf
    obtain ⟨filtered, hfiltered⟩ := exists_buildSelection_iff.2 ⟨f, hbelow⟩
    obtain ⟨r, hr, hschema⟩ := hb filtered (schema_of_buildSelection hfiltered)
    have habove := schema_of_buildSelection habove
    exact ⟨filtered, r, hfiltered, hr, hschema.trans habove.symm, f, hf, hbelow⟩

/-- A filter on columns that a projection or the groups of an aggregate pass on can be built above
the node exactly when nothing else takes their names, and may then be built below. -/
theorem filter_pushdown (p : Plan) (e : Expr) :
    (∀ exprs node, (p.buildProjection exprs).result = .ok node →
      (∀ n ∈ e.columns, Expr.column n ∈ exprs) →
      LetsThrough p node (fun q => q.buildProjection exprs) exprs e) ∧
    ∀ groups aggregates node, (p.buildAggregate groups aggregates).result = .ok node →
      (∀ n ∈ e.columns, Expr.column n ∈ groups) →
      LetsThrough p node (fun q => q.buildAggregate groups aggregates) (groups ++ aggregates) e := by
  constructor
  · intro exprs node hnode hm
    obtain ⟨log, hl⟩ := Outcome.result_eq_ok_iff.1 hnode
    obtain ⟨derived, hd, rfl, -⟩ := buildProjection_eq_iff.1 hl
    refine letsThrough hd hm fun q hq => ?_
    have hb := buildProjection_eq_iff.2 ⟨derived, hq ▸ hd, rfl, rfl⟩
    exact ⟨_, Outcome.result_eq_ok_iff.2 ⟨_, hb⟩, rfl⟩
  · intro groups aggregates node hnode hm
    obtain ⟨log, hl⟩ := Outcome.result_eq_ok_iff.1 hnode
    obtain ⟨derived, ha, hd, rfl, -⟩ := buildAggregate_eq_iff.1 hl
    refine letsThrough hd (fun n hn => List.mem_append_left _ (hm n hn)) fun q hq => ?_
    have hb := buildAggregate_eq_iff.2 ⟨derived, ha, hq ▸ hd, rfl, rfl⟩
    exact ⟨_, Outcome.result_eq_ok_iff.2 ⟨_, hb⟩, rfl⟩

private def ledger : Plan :=
  ofFile "t.csv" ⟨[⟨"a", .int64, false⟩, ⟨"sum", .int64, false⟩]⟩

/-- Groups by two columns, one of which bears the name of the function that sums the other up. -/
theorem pushdown_beside_sum : ∃ node,
    (ledger.buildAggregate [.column "a", .column "sum"]
      [.aggregation .sum (.column "a")]).result = .ok node ∧
    (∃ filtered below,
      (ledger.buildSelection (.logic .eq (.column "a") (.integer 1))).result = .ok filtered ∧
      (filtered.buildAggregate [.column "a", .column "sum"]
        [.aggregation .sum (.column "a")]).result = .ok below ∧
      below.schema = node.schema) ∧
    ¬ ∃ above, (node.buildSelection (.logic .eq (.column "sum") (.integer 1))).result = .ok above := by
  have hnode : (ledger.buildAggregate [.column "a", .column "sum"]
      [.aggregation .sum (.column "a")]).result = .ok _ := rfl
  have hsum := (filter_pushdown ledger (.logic .eq (.column "sum") (.integer 1))).2 _ _ _ hnode
    (by decide)
  have ha := (filter_pushdown ledger (.logic .eq (.column "a") (.integer 1))).2 _ _ _ hnode
    (by decide)
  obtain ⟨above, habove⟩ := ha.above_iff.2 (by decide)
  obtain ⟨filtered, below, hfiltered, hbelow, hschema, -⟩ := ha.below above habove
  rw [schema_of_buildSelection habove] at hschema
  refine ⟨_, hnode, ⟨filtered, below, hfiltered, hbelow, hschema⟩, ?_⟩
  rw [hsum.above_iff]
  decide

end Plan
end QueryPlan
