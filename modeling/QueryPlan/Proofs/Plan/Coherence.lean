import QueryPlan.Proofs.Query.Opening
import QueryPlan.Proofs.Query.Step
/-!
# Plans that can be constructed

A plan is constructed node by node, from a scan up, by building nodes directly or by steps of a
query. Whatever the way, no node of a constructed plan is ill-formed: the schema it reports is the
one that is derived anew from the scan, its expressions resolve over its input and its aggregates
are aggregations. Building the plan once more, from what its nodes hold, gives the same plan and
logs the same records.
-/
namespace QueryPlan
namespace Plan

/-- The plans that can be constructed, each with all that was logged on the way. -/
inductive Constructed : List LogRecord → Plan → Prop where
  | scan {path : String} {bound : Schema} {source : CsvSource} {columns : ScanColumns}
    {log : List LogRecord} {p : Plan} (h : buildScan path bound source columns = ⟨log, .ok p⟩) :
    Constructed log p
  /-- A file opened in a context. -/
  | csv {c : Context} {schema : Schema} {path : String} {log : List LogRecord} {q : Query}
    (h : c.csv schema path = ⟨log, .ok q⟩) : Constructed log q.plan
  | projection {before log : List LogRecord} {input p : Plan} {exprs : List Draft}
    (hi : Constructed before input) (h : input.projectDrafts exprs = ⟨log, .ok p⟩) :
    Constructed (before ++ log) p
  | selection {before log : List LogRecord} {input p : Plan} {predicate : Draft}
    (hi : Constructed before input) (h : input.selectDraft predicate = ⟨log, .ok p⟩) :
    Constructed (before ++ log) p
  | aggregate {before log : List LogRecord} {input p : Plan} {groups aggregates : List Draft}
    (hi : Constructed before input)
    (h : input.aggregateDrafts groups aggregates = ⟨log, .ok p⟩) :
    Constructed (before ++ log) p
  /-- A step of a query over a constructed plan. -/
  | step {before log : List LogRecord} {q r : Query} {s : Step} (hi : Constructed before q.plan)
    (h : q.step s = ⟨log, .ok r⟩) : Constructed (before ++ log) r.plan

def rederived : Plan → Except UnknownColumn Schema
  | .scan _ bound _ _ => .ok bound
  | .projection input exprs _ => do (← input.rederived).derive exprs
  | .selection input _ => input.rederived
  | .aggregate input groups aggregates _ => do (← input.rederived).derive (groups ++ aggregates)

def rebuild : Plan → Outcome PlanError Plan
  | .scan path bound source columns => buildScan path bound source (.names columns)
  | .projection input exprs _ => input.rebuild.bind fun p => p.buildProjection exprs
  | .selection input predicate => input.rebuild.bind fun p => p.buildSelection predicate
  | .aggregate input groups aggregates _ =>
    input.rebuild.bind fun p => p.buildAggregate groups aggregates

def exprs : Plan → List Expr
  | .scan .. => []
  | .projection _ exprs _ => exprs
  | .selection _ predicate => [predicate]
  | .aggregate _ groups aggregates _ => groups ++ aggregates

def aggregates : Plan → List Expr
  | .aggregate _ _ aggregates _ => aggregates
  | _ => []

def columns : Plan → List String
  | .scan _ _ _ columns => columns
  | _ => []

structure Coherent (p : Plan) : Prop where
  rederived : p.rederived = .ok p.schema
  resolves : ∀ input, p.input? = some input → ∀ e ∈ p.exprs, ∃ f, e.field input.schema = .ok f
  aggregations : ∀ e ∈ p.aggregates, e.isAggregation = true
  columns : ∀ n ∈ p.columns, p.schema.names.count n = 1

/-- What building the nodes of a plan logged, without what a context logged. -/
def ofPlans (log : List LogRecord) : List LogRecord :=
  log.filter (·.component = .plan)

def history : Plan → List LogRecord
  | p@(.scan ..) => p.records
  | p@(.projection input _ _) | p@(.selection input _) | p@(.aggregate input _ _ _) =>
    input.history ++ p.records

/-- The plans whose nodes are each supported by the input, on a scan that fits its source. -/
inductive WellBuilt : Plan → Prop where
  | scan {path : String} {bound : Schema} {source : CsvSource} {columns : List String}
    (hs : source.schema = bound) (hc : ∀ n ∈ columns, bound.names.count n = 1) :
    WellBuilt (.scan path bound source columns)
  | node {input p : Plan} (hi : WellBuilt input) (h : input.Supports p) : WellBuilt p

variable {input p : Plan} {log : List LogRecord}

@[simp] theorem ofPlans_append (log more : List LogRecord) :
    ofPlans (log ++ more) = ofPlans log ++ ofPlans more :=
  List.filter_append _ _

@[simp] theorem ofPlans_duplicateWarning (node : String) (derived : Schema) :
    ofPlans (duplicateWarning node derived) = duplicateWarning node derived := by
  unfold duplicateWarning
  split <;> rfl

@[simp] theorem ofPlans_records (p : Plan) : ofPlans p.records = p.records := by
  cases p with
  | scan | selection => rfl
  | projection | aggregate =>
    rw [records, ofPlans_append, ofPlans_duplicateWarning]
    rfl

theorem Supports.input? (h : input.Supports p) : p.input? = some input := by
  cases h <;> rfl

theorem Supports.columns (h : input.Supports p) : p.columns = [] := by
  cases h <;> rfl

theorem Supports.aggregations (h : input.Supports p) :
    ∀ e ∈ p.aggregates, e.isAggregation = true := by
  cases h with
  | projection | selection => simp [aggregates]
  | aggregate ha => exact ha

theorem Supports.resolves (h : input.Supports p) :
    ∀ e ∈ p.exprs, ∃ f, e.field input.schema = .ok f := by
  intro e he
  cases h with
  | projection h | aggregate _ h =>
    obtain ⟨f, -, hf⟩ := Schema.exists_field_of_derive h he
    exact ⟨f, hf⟩
  | selection h =>
    obtain rfl := List.mem_singleton.1 he
    exact ⟨_, h⟩

theorem Supports.history (h : input.Supports p) : p.history = input.history ++ p.records := by
  cases h <;> rfl

theorem scan_of_csv {c : Context} {schema : Schema} {path : String} {q : Query}
    (h : c.csv schema path = ⟨log, .ok q⟩) :
    ∃ more, buildScan path schema ⟨schema, path, c.config⟩ (.names []) = ⟨more, .ok q.plan⟩ ∧
      log = ⟨.debug, .context, "Registered CSV source " ++ path⟩ :: more := by
  obtain ⟨-, hplan, hlog⟩ := Context.csv_eq_ok_iff.1 h
  exact ⟨_, hplan ▸ Context.buildScan_scanOf c schema path, hlog⟩

/-- What holds of scans and is kept by nodes holds of all plans that can be constructed: however a
node is built, it is one that the input supports. -/
theorem Constructed.induct {motive : ∀ log p, Constructed log p → Prop}
    (scan : ∀ {path bound source columns log p} registered,
      buildScan path bound source columns = ⟨log, .ok p⟩ → ofPlans registered = [] →
      ∀ h : Constructed (registered ++ log) p, motive _ _ h)
    (node : ∀ {before input p} (hi : Constructed before input), motive _ _ hi →
      input.Supports p → ∀ h : Constructed (before ++ p.records) p, motive _ _ h)
    {log : List LogRecord} {p : Plan} (h : Constructed log p) : motive log p h := by
  induction h with
  | scan h => exact scan [] h rfl (.scan h)
  | csv h =>
    obtain ⟨more, hs, rfl⟩ := scan_of_csv h
    exact scan [_] hs rfl (.csv h)
  | projection hi h ih =>
    obtain ⟨hs, rfl⟩ := supports_of_projectDrafts h
    exact node hi ih hs _
  | selection hi h ih =>
    obtain ⟨hs, rfl⟩ := supports_of_selectDraft h
    exact node hi ih hs _
  | aggregate hi h ih =>
    obtain ⟨hs, rfl⟩ := supports_of_aggregateDrafts h
    exact node hi ih hs _
  | step hi h ih =>
    obtain ⟨hs, rfl⟩ := Query.supports_of_step h
    exact node hi ih hs _

theorem Constructed.wellBuilt (h : Constructed log p) : p.WellBuilt ∧ ofPlans log = p.history := by
  induction h using Constructed.induct with
  | scan registered h hr =>
    obtain ⟨names, rfl, hs, hc, rfl, rfl⟩ := buildScan_eq_iff.1 h
    refine ⟨.scan hs hc, ?_⟩
    rw [ofPlans_append, hr, ofPlans_records]
    rfl
  | node _ ih hs =>
    refine ⟨.node ih.1 hs, ?_⟩
    rw [ofPlans_append, ih.2, ofPlans_records, hs.history]

theorem Constructed.of_mem_nodes (h : Constructed log p) :
    ∀ n ∈ p.nodes, ∃ part, part <+: log ∧ Constructed part n := by
  induction h using Constructed.induct with
  | scan registered h hr hc =>
    obtain ⟨names, -, -, -, rfl, -⟩ := buildScan_eq_iff.1 h
    intro n hn
    obtain rfl := List.mem_singleton.1 hn
    exact ⟨_, List.prefix_rfl, hc⟩
  | node _ ih hs hc =>
    intro n hn
    rw [hs.nodes, List.mem_cons] at hn
    rcases hn with rfl | hn
    · exact ⟨_, List.prefix_rfl, hc⟩
    · obtain ⟨part, hp, hpart⟩ := ih n hn
      exact ⟨part, hp.trans (List.prefix_append _ _), hpart⟩

theorem WellBuilt.rederived (h : p.WellBuilt) : p.rederived = .ok p.schema := by
  induction h with
  | scan => rfl
  | node hi hs ih =>
    cases hs with
    | projection h | aggregate _ h =>
      rw [Plan.rederived, ih]
      exact h
    | selection h => exact ih

theorem WellBuilt.rebuild (h : p.WellBuilt) : p.rebuild = ⟨p.history, .ok p⟩ := by
  -- the input is rebuilt as it was, so that each node is built over the same schema again
  induction h with
  | scan hs hc => exact buildScan_eq_iff.2 ⟨_, rfl, hs, hc, rfl, rfl⟩
  | node hi hs ih =>
    rw [hs.history]
    cases hs with
    | projection h =>
      have hb := buildProjection_eq_iff.2 ⟨_, h, rfl, rfl⟩
      rw [Plan.rebuild, ih, Outcome.bind_of_ok rfl, hb]
      rfl
    | selection h =>
      have hb := buildSelection_eq_iff.2 ⟨⟨_, h⟩, rfl, rfl⟩
      rw [Plan.rebuild, ih, Outcome.bind_of_ok rfl, hb]
      rfl
    | aggregate ha h =>
      have hb := buildAggregate_eq_iff.2 ⟨_, ha, h, rfl, rfl⟩
      rw [Plan.rebuild, ih, Outcome.bind_of_ok rfl, hb]
      rfl

theorem WellBuilt.coherent (h : p.WellBuilt) : p.Coherent := by
  have hr := h.rederived
  cases h with
  | scan hs hc => exact ⟨hr, by simp [input?], by simp [aggregates], hc⟩
  | node hi hs =>
    refine ⟨hr, fun _ hinput => ?_, hs.aggregations, by simp [hs.columns]⟩
    rw [hs.input?] at hinput
    cases hinput
    exact hs.resolves

/-- Every node of a constructed plan is coherent and was constructed on the way, and building it once
more gives the same node and logs the same records. -/
theorem Constructed.all_coherent (h : Constructed log p) :
    (∀ n ∈ p.nodes, n.Coherent ∧ ∃ part, part <+: log ∧ Constructed part n ∧
      n.rebuild = ⟨ofPlans part, .ok n⟩) ∧
    p.rebuild = ⟨ofPlans log, .ok p⟩ := by
  have again : ∀ {log p}, Constructed log p → p.rebuild = ⟨ofPlans log, .ok p⟩ := by
    intro log p h
    obtain ⟨hw, hl⟩ := h.wellBuilt
    rw [hw.rebuild, hl]
  refine ⟨fun n hn => ?_, again h⟩
  obtain ⟨part, hp, hpart⟩ := h.of_mem_nodes n hn
  exact ⟨hpart.wellBuilt.1.coherent, part, hp, hpart, again hpart⟩

private def lettered : Plan :=
  ofFile "t.csv" ⟨[⟨"a", .int64, false⟩]⟩

private def repeating : Plan :=
  .projection lettered [.column "a", .text "a"] ⟨[⟨"a", .int64, false⟩, ⟨"a", .utf8, false⟩]⟩

/-- A column and a text of its name stand side by side, so a name repeats and that is logged. -/
theorem coherent_with_repeated_name : ∃ log p,
    Constructed log p ∧ p.schema.names = ["a", "a"] ∧
    log.map LogRecord.level = [.debug, .debug, .warning, .debug, .debug] ∧
    (∀ n ∈ p.nodes, n.Coherent ∧ ∃ part, part <+: log ∧ Constructed part n ∧
      n.rebuild = ⟨ofPlans part, .ok n⟩) ∧
    p.rebuild = ⟨ofPlans log, .ok p⟩ := by
  have hcsv : Context.ofConfig.csv lettered.schema "t.csv" = ⟨_, .ok ⟨lettered⟩⟩ := rfl
  have hselect : Query.step ⟨lettered⟩ (.select [.bare "a", .text "a"]) = ⟨_, .ok ⟨repeating⟩⟩ := rfl
  have hfilter : repeating.selectDraft (.logic .eq (.integer 1) (.text "x")) = ⟨_, .ok _⟩ := rfl
  have h := ((Constructed.csv hcsv).step hselect).selection hfilter
  exact ⟨_, _, h, rfl, rfl, Constructed.all_coherent h⟩

end Plan
end QueryPlan
