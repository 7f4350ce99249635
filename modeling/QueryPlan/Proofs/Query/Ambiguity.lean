import QueryPlan.Proofs.Query.Opening
import QueryPlan.Proofs.Query.Step
/-!
# Ambiguous names are announced

A name becomes ambiguous where a projection or an aggregate repeats it, since the schema of a file has
distinct names and a filter passes on what it gets. The node that repeats names lists them in a warning
when it is built. So whoever is refused an ambiguous name in a run finds it in the warning of the
nearest projection or aggregate.
-/
namespace QueryPlan

def warnings (log : List LogRecord) : List LogRecord :=
  log.filter (·.level = .warning)

namespace Plan
variable {p : Plan}

def derives : Plan → Bool
  | .scan .. | .selection .. => false
  | .projection .. | .aggregate .. => true

def kind : Plan → String
  | .scan .. => "Scan"
  | .projection .. => "Projection"
  | .selection .. => "Selection"
  | .aggregate .. => "Aggregate"

def repeatWarning (p : Plan) (names : List String) : LogRecord :=
  ⟨.warning, .plan, p.kind ++ " produces duplicate field names " ++ Text.quotedList names ++
    "; they cannot be referenced by later expressions"⟩

/-- A log announces the names that a node repeats: in a single warning, if there are any. -/
structure Announces (p : Plan) (log : List LogRecord) : Prop where
  silent : p.schema.names.Nodup → warnings log = []
  single : ¬ p.schema.names.Nodup →
    ∃ names, Repeats p.schema.names names ∧ warnings log = [p.repeatWarning names]

/-- The warnings of a node that derives a schema are about the names that this schema repeats. -/
theorem warnings_records (h : p.derives = true) : warnings p.records =
    if p.schema.duplicateNames = [] then [] else [p.repeatWarning p.schema.duplicateNames] := by
  cases p with
  | scan | selection => cases h
  | projection | aggregate =>
    rw [records, schema, warnings, duplicateWarning]
    split
    · next hn =>
      rw [if_pos hn]
      rfl
    · next hn =>
      rw [if_neg hn]
      rfl

theorem announces_records (h : p.derives = true) : p.Announces p.records := by
  have hw := warnings_records h
  refine ⟨fun hn => ?_, fun hn => ?_⟩
  · rw [hw, if_pos (Schema.duplicateNames_eq_nil_iff.2 hn)]
  · rw [if_neg fun hd => hn (Schema.duplicateNames_eq_nil_iff.1 hd)] at hw
    exact ⟨_, Schema.repeats_repeatedNames _, hw⟩

theorem warnings_records_of_not_derives (h : p.derives = false) : warnings p.records = [] := by
  cases p with
  | projection | aggregate => cases h
  | scan | selection => rfl

theorem schema_of_nearest {node : Plan} (h : p.nodes.find? derives = some node) :
    p.schema = node.schema := by
  induction p with
  | scan => cases h
  | projection | aggregate =>
    cases h
    rfl
  | selection input predicate ih => exact ih h

end Plan

namespace Schema

/-- What a schema answers for a name: which of the two refusals, or the one field of this name. -/
structure Answers (s : Schema) (n : String) : Prop where
  ambiguous : (Expr.column n).field s = .error ⟨n, s.names, true⟩ ↔ n ∈ s.duplicateNames
  missing : (Expr.column n).field s = .error ⟨n, s.names, false⟩ ↔ n ∉ s.names
  found : n ∈ s.names → n ∉ s.duplicateNames →
    ∃ f, (Expr.column n).field s = .ok f ∧ s.fields.filter (·.name == n) = [f]

theorem answers (s : Schema) (n : String) : s.Answers n := by
  have herror : ∀ ambiguous, (Expr.column n).field s = .error ⟨n, s.names, ambiguous⟩ ↔
      s.names.count n ≠ 1 ∧ ambiguous = decide (2 ≤ s.names.count n) := by
    intro ambiguous
    rw [Expr.field, resolve_eq_error_iff]
    simp
  refine ⟨?_, ?_, fun hm hd => ?_⟩
  · rw [herror, duplicateNames, mem_repeatedNames_iff, eq_comm, decide_eq_true_iff]
    exact ⟨And.right, fun h => ⟨by omega, h⟩⟩
  · rw [herror, ← List.count_eq_zero, eq_comm, decide_eq_false_iff_not]
    omega
  · rw [duplicateNames, mem_repeatedNames_iff] at hd
    have hpos : 0 < s.names.count n := List.count_pos_iff.2 hm
    obtain ⟨f, hf⟩ := exists_resolve_iff.2 (show s.names.count n = 1 by omega)
    exact ⟨f, hf, resolve_eq_ok_iff.1 hf⟩

theorem mem_duplicateNames_of_resolve {s : Schema} {n : String} {u : UnknownColumn}
    (h : s.resolve n = .error u) (ha : u.ambiguous = true) : u.column ∈ s.duplicateNames := by
  obtain ⟨-, rfl⟩ := resolve_eq_error_iff.1 h
  exact mem_repeatedNames_iff.2 (of_decide_eq_true ha)

end Schema

namespace Query
variable {q r : Query} {s : Step} {steps : List Step} {made : List Made}

theorem exists_of_step_error {u : UnknownColumn}
    (h : (q.step s).result = .error (.unknownColumn u)) : ∃ n, q.schema.resolve n = .error u := by
  cases s with
  | select items => exact Plan.exists_of_projectDrafts_error (map_eq_error_iff.1 h)
  | filter predicate => exact Plan.exists_of_selectDraft_error (map_eq_error_iff.1 h)
  | aggregate groups aggregates =>
    exact Plan.exists_of_aggregateDrafts_error (map_eq_error_iff.1 h)

theorem log_of_mem_run (h : q.run steps = .ok made) : ∀ m ∈ made, m.log = m.query.plan.records := by
  induction steps generalizing q made with
  | nil =>
    cases h
    simp
  | cons s rest ih =>
    obtain ⟨m, more, hs, hm, rfl⟩ := run_cons_eq_ok_iff.1 h
    rw [List.forall_mem_cons]
    exact ⟨(supports_of_step hs).2, ih hm⟩

theorem exists_run_of_prefix {before : List Made} (h : q.run steps = .ok made)
    (hp : before <+: made) : ∃ steps', q.run steps' = .ok before := by
  induction steps generalizing q made before with
  | nil =>
    cases h
    rw [List.prefix_nil] at hp
    subst hp
    exact ⟨[], rfl⟩
  | cons s rest ih =>
    obtain ⟨m, more, hs, hm, rfl⟩ := run_cons_eq_ok_iff.1 h
    cases before with
    | nil => exact ⟨[], rfl⟩
    | cons first before =>
      obtain ⟨hfirst, hbefore⟩ := List.cons_prefix_cons.1 hp
      subst hfirst
      obtain ⟨steps', hrun⟩ := ih hm hbefore
      exact ⟨s :: steps', run_cons_eq_ok_iff.2 ⟨first, before, hs, hrun, rfl⟩⟩

/-- In a run from a scan the nodes that derive a schema are those of the steps. -/
theorem nearest_of_run (h : q.run steps = .ok made) (hq : q.plan.nodes.find? Plan.derives = none)
    {node : Plan} (hn : (q.last made).plan.nodes.find? Plan.derives = some node) :
    ∃ m ∈ made, m.query.plan = node := by
  rw [nodes_last h, List.find?_append, hq, Option.or_none] at hn
  have hm := List.mem_of_find?_eq_some hn
  rw [List.mem_reverse, List.mem_map] at hm
  exact hm

theorem schema_of_no_nearest (h : q.run steps = .ok made)
    (hn : (q.last made).plan.nodes.find? Plan.derives = none) :
    (q.last made).schema = q.schema := by
  induction steps generalizing q made with
  | nil =>
    cases h
    rfl
  | cons s rest ih =>
    obtain ⟨m, more, hs, hm, rfl⟩ := run_cons_eq_ok_iff.1 h
    have hlast : m.query.schema = q.schema := by
      have hd : m.query.plan.derives = false := by
        have hnodes := nodes_last h
        rw [hnodes] at hn
        have := List.find?_eq_none.1 hn m.query.plan (by simp)
        simpa using this
      have hsup := (supports_of_step hs).1
      rw [schema, schema]
      generalize m.query.plan = p at hd hsup
      cases hsup with
      | projection | aggregate => cases hd
      | selection => rfl
    rw [last, ih hm hn, hlast]

/-- A name that is ambiguous after some steps is listed in the warning of the nearest node that
derives a schema, since the schema of the file repeats no name. -/
theorem exists_announcement (h : q.run steps = .ok made)
    (hq : q.plan.nodes.find? Plan.derives = none) (hn : q.schema.names.Nodup) {n : String}
    (hd : n ∈ (q.last made).schema.duplicateNames) :
    ∃ node, (q.last made).plan.nodes.find? Plan.derives = some node ∧
      ∃ m ∈ made, m.query.plan = node ∧
        ∃ names, n ∈ names ∧ node.repeatWarning names ∈ m.log := by
  cases hfind : (q.last made).plan.nodes.find? Plan.derives with
  | none =>
    rw [schema_of_no_nearest h hfind, Schema.duplicateNames_eq_nil_iff.2 hn] at hd
    cases hd
  | some node =>
    obtain ⟨m, hm, hnode⟩ := nearest_of_run h hq hfind
    have hderives : node.derives = true := List.find?_some hfind
    have hschema : (q.last made).schema = node.schema := Plan.schema_of_nearest hfind
    rw [hschema] at hd
    have hlog : m.log = node.records := by
      rw [log_of_mem_run h m hm, hnode]
    have hrepeats : ¬ node.schema.names.Nodup := fun hnodup => by
      rw [Schema.duplicateNames_eq_nil_iff.2 hnodup] at hd
      cases hd
    obtain ⟨names, hnames, hwarnings⟩ := (Plan.announces_records hderives).single hrepeats
    refine ⟨node, rfl, m, hm, hnode, names, ?_, ?_⟩
    · exact (hnames.mem_iff n).2 (Schema.mem_repeatedNames_iff.1 hd)
    · have hmem : node.repeatWarning names ∈ warnings node.records := by simp [hwarnings]
      rw [hlog]
      exact (List.mem_filter.1 hmem).1

/-- In a run from a file every node that repeats names lists them in a single warning, and no other
node warns. Wherever the run has come to, a column is refused as ambiguous exactly for the repeated
names of the schema. A step that is refused an ambiguous column was warned of it: by the nearest
node that derives a schema, when that was built. -/
theorem ambiguity_announced {c : Context} {schema : Schema} {path : String} {log : List LogRecord}
    (hq : c.csv schema path = ⟨log, .ok q⟩) (hrun : q.run steps = .ok made) :
    (∀ m ∈ made, (m.query.plan.derives = true → m.query.plan.Announces m.log) ∧
      (m.query.plan.derives = false → warnings m.log = [])) ∧
    ∀ before, before <+: made →
      (∀ n, (q.last before).schema.Answers n) ∧
      ∀ s u, ((q.last before).step s).result = .error (.unknownColumn u) → u.ambiguous = true →
        ∃ node, (q.last before).plan.nodes.find? Plan.derives = some node ∧
          ∃ m ∈ before, m.query.plan = node ∧
            ∃ names, u.column ∈ names ∧ node.repeatWarning names ∈ m.log := by
  obtain ⟨hnodup, hplan, -⟩ := Context.csv_eq_ok_iff.1 hq
  have hnone : q.plan.nodes.find? Plan.derives = none := by
    rw [hplan]
    rfl
  have hnames : q.schema.names.Nodup := by
    rw [Query.schema, hplan]
    exact hnodup
  constructor
  · intro m hm
    rw [log_of_mem_run hrun m hm]
    exact ⟨Plan.announces_records, Plan.warnings_records_of_not_derives⟩
  · intro before hbefore
    obtain ⟨_, hpart⟩ := exists_run_of_prefix hrun hbefore
    refine ⟨fun n => Schema.answers _ n, fun s u hs ha => ?_⟩
    obtain ⟨n, hn⟩ := exists_of_step_error hs
    exact exists_announcement hpart hnone hnames (Schema.mem_duplicateNames_of_resolve hn ha)

/-- Whoever selects a column twice is refused it from then on, also after a filter, and was warned of
it by the projection. -/
theorem selected_twice_announced :
    let opened : Query := ⟨Context.ofConfig.scanOf ⟨[⟨"a", .utf8, false⟩]⟩ "letters.csv"⟩
    ∃ made, opened.run [.select [.column "a", .column "a"], .filter (.integer 1)] = .ok made ∧
      ((opened.last made).step (.select [.column "a"])).result =
        .error (.unknownColumn ⟨"a", ["a", "a"], true⟩) ∧
      ∃ node m names, (opened.last made).plan.nodes.find? Plan.derives = some node ∧ m ∈ made ∧
        m.query.plan = node ∧ "a" ∈ names ∧ node.repeatWarning names ∈ m.log := by
  intro opened
  have hnodup : Schema.names ⟨[⟨"a", .utf8, false⟩]⟩ |>.Nodup := by decide
  have hrun : opened.run [.select [.column "a", .column "a"], .filter (.integer 1)] = .ok _ := rfl
  have hannounced := (ambiguity_announced (Context.csv_of_nodup hnodup .ofConfig "letters.csv")
    hrun).2 _ List.prefix_rfl
  obtain ⟨node, hnode, m, hm, hplan, names, hn, hlog⟩ :=
    hannounced.2 (.select [.column "a"]) ⟨"a", ["a", "a"], true⟩ rfl rfl
  exact ⟨_, hrun, rfl, node, m, names, hnode, hm, hplan, hn, hlog⟩

end Query
end QueryPlan
