import QueryPlan.Plan.Draft
import QueryPlan.Proofs.Expr.Refusal
/-!
# What building a node comes to

A node is built over an input exactly when its expressions resolve over the input's schema, and what
is logged can be read off the node. Building from drafts is building from the expressions they
stand for; drafts that stand for none are refused.
-/
namespace QueryPlan

theorem Outcome.result_eq_ok_iff {ε α : Type} {o : Outcome ε α} {a : α} :
    o.result = .ok a ↔ ∃ log, o = ⟨log, .ok a⟩ := by
  constructor
  · intro h
    exact ⟨o.log, by rw [← h]⟩
  · rintro ⟨log, rfl⟩
    rfl

theorem Outcome.map_map {ε α β γ : Type} (f : α → β) (g : β → γ) (o : Outcome ε α) :
    (o.map f).map g = o.map fun a => g (f a) := by
  obtain ⟨log, x⟩ := o
  cases x <;> rfl

namespace Plan

/-- The scan of all columns of a file, with the standard settings. -/
def ofFile (path : String) (schema : Schema) : Plan :=
  .scan path schema ⟨schema, path, .standard⟩ []

def records : Plan → List LogRecord
  | .scan path bound _ _ =>
    [created ("Scan of " ++ path ++ " with " ++ toString bound.width ++ " fields")]
  | .projection _ exprs derived =>
    duplicateWarning "Projection" derived ++
      [created ("Projection of " ++ toString exprs.length ++ " expressions")]
  | .selection _ predicate => [created ("Selection on " ++ predicate.display)]
  | .aggregate _ groups aggregates derived =>
    duplicateWarning "Aggregate" derived ++
      [created ("Aggregate with " ++ toString groups.length ++ " groups and " ++
        toString aggregates.length ++ " aggregates")]

inductive Supports (input : Plan) : Plan → Prop where
  | projection {exprs : List Expr} {derived : Schema}
    (h : input.schema.derive exprs = .ok derived) :
    Supports input (.projection input exprs derived)
  | selection {predicate : Expr} {f : Field} (h : predicate.field input.schema = .ok f) :
    Supports input (.selection input predicate)
  | aggregate {groups aggregates : List Expr} {derived : Schema}
    (ha : ∀ e ∈ aggregates, e.isAggregation = true)
    (h : input.schema.derive (groups ++ aggregates) = .ok derived) :
    Supports input (.aggregate input groups aggregates derived)

def onto (input : Plan) : Plan → Plan
  | .scan path bound source columns => .scan path bound source columns
  | .projection _ exprs derived => .projection input exprs derived
  | .selection _ predicate => .selection input predicate
  | .aggregate _ groups aggregates derived => .aggregate input groups aggregates derived

@[simp] theorem records_onto (input p : Plan) : (onto input p).records = p.records := by
  cases p <;> rfl

@[simp] theorem display_onto (input p : Plan) : (onto input p).display = p.display := by
  cases p <;> rfl

variable {input p : Plan} {log : List LogRecord}

theorem Supports.nodes (h : input.Supports p) : p.nodes = p :: input.nodes := by
  cases h <;> rfl

theorem buildScan_eq_iff {path : String} {bound : Schema} {source : CsvSource}
    {columns : ScanColumns} :
    buildScan path bound source columns = ⟨log, .ok p⟩ ↔
      ∃ names, columns = .names names ∧ source.schema = bound ∧
        (∀ n ∈ names, bound.names.count n = 1) ∧ p = .scan path bound source names ∧
        log = p.records := by
  cases columns with
  | text text => simp [buildScan, Outcome.fail]
  | names names =>
    rw [buildScan]
    by_cases hs : source.schema = bound
    · rw [if_pos hs]
      cases hn : bound.select names with
      | error e =>
        constructor
        · intro h
          cases h
        · rintro ⟨_, h, -, hc, -⟩
          cases h
          obtain ⟨t, ht⟩ := Schema.exists_select_iff.2 hc
          rw [hn] at ht
          cases ht
      | ok t =>
        have hc := Schema.exists_select_iff.1 ⟨t, hn⟩
        constructor
        · intro h
          cases h
          exact ⟨names, rfl, hs, hc, rfl, rfl⟩
        · rintro ⟨_, h, -, -, rfl, rfl⟩
          cases h
          rfl
    · simp [hs, Outcome.fail]

theorem buildProjection_eq_iff {exprs : List Expr} :
    input.buildProjection exprs = ⟨log, .ok p⟩ ↔
      ∃ derived, input.schema.derive exprs = .ok derived ∧ p = .projection input exprs derived ∧
        log = p.records := by
  rw [buildProjection]
  cases input.schema.derive exprs with
  | error e => simp [Outcome.fail]
  | ok derived =>
    constructor
    · intro h
      cases h
      exact ⟨derived, rfl, rfl, rfl⟩
    · rintro ⟨_, h, rfl, rfl⟩
      cases h
      rfl

theorem buildSelection_eq_iff {predicate : Expr} :
    input.buildSelection predicate = ⟨log, .ok p⟩ ↔
      (∃ f, predicate.field input.schema = .ok f) ∧ p = .selection input predicate ∧
        log = p.records := by
  rw [buildSelection]
  cases predicate.field input.schema with
  | error e => simp [Outcome.fail]
  | ok f =>
    constructor
    · intro h
      cases h
      exact ⟨⟨f, rfl⟩, rfl, rfl⟩
    · rintro ⟨-, rfl, rfl⟩
      rfl

theorem exists_buildSelection_iff {predicate : Expr} :
    (∃ p, (input.buildSelection predicate).result = .ok p) ↔
      ∃ f, predicate.field input.schema = .ok f := by
  constructor
  · rintro ⟨p, hp⟩
    obtain ⟨log, hl⟩ := Outcome.result_eq_ok_iff.1 hp
    exact (buildSelection_eq_iff.1 hl).1
  · intro hf
    have hb := buildSelection_eq_iff.2 ⟨hf, rfl, rfl⟩
    exact ⟨_, Outcome.result_eq_ok_iff.2 ⟨_, hb⟩⟩

theorem schema_of_buildSelection {predicate : Expr}
    (h : (input.buildSelection predicate).result = .ok p) : p.schema = input.schema := by
  obtain ⟨log, hl⟩ := Outcome.result_eq_ok_iff.1 h
  obtain ⟨-, rfl, -⟩ := buildSelection_eq_iff.1 hl
  rfl

theorem find?_aggregation_eq_none_iff {aggregates : List Expr} :
    (aggregates.find? fun e => !e.isAggregation) = none ↔
      ∀ e ∈ aggregates, e.isAggregation = true := by
  simp

theorem buildAggregate_of_aggregations {groups aggregates : List Expr}
    (ha : ∀ e ∈ aggregates, e.isAggregation = true) :
    input.buildAggregate groups aggregates =
      match input.schema.derive (groups ++ aggregates) with
      | .error e => .fail (.unknownColumn e)
      | .ok derived =>
        ⟨(aggregate input groups aggregates derived).records,
          .ok (.aggregate input groups aggregates derived)⟩ := by
  rw [buildAggregate, find?_aggregation_eq_none_iff.2 ha]
  rfl

theorem buildAggregate_eq_iff {groups aggregates : List Expr} :
    input.buildAggregate groups aggregates = ⟨log, .ok p⟩ ↔
      ∃ derived, (∀ e ∈ aggregates, e.isAggregation = true) ∧
        input.schema.derive (groups ++ aggregates) = .ok derived ∧
        p = .aggregate input groups aggregates derived ∧ log = p.records := by
  by_cases ha : ∀ e ∈ aggregates, e.isAggregation = true
  · rw [buildAggregate_of_aggregations ha]
    cases input.schema.derive (groups ++ aggregates) with
    | error e => simp [Outcome.fail]
    | ok derived =>
      constructor
      · intro h
        cases h
        exact ⟨derived, ha, rfl, rfl, rfl⟩
      · rintro ⟨_, -, h, rfl, rfl⟩
        cases h
        rfl
  · constructor
    · intro h
      rw [buildAggregate] at h
      cases hf : aggregates.find? fun e => !e.isAggregation with
      | none => exact absurd (find?_aggregation_eq_none_iff.1 hf) ha
      | some e =>
        rw [hf] at h
        cases h
    · rintro ⟨_, h, -⟩
      exact absurd h ha

end Plan

namespace Draft

theorem expr?_eq_some_iff {d : Draft} {e : Expr} : d.expr? = some e ↔ d = e.draft := by
  constructor
  · intro h
    induction d generalizing e with
    | bare => cases h
    | column | text | integer =>
      cases h
      rfl
    | logic op left right ihl ihr | arith op left right ihl ihr =>
      obtain ⟨l, hl, h⟩ := Option.bind_eq_some_iff.1 h
      obtain ⟨r, hr, h⟩ := Option.bind_eq_some_iff.1 h
      cases h
      rw [ihl hl, ihr hr, Expr.draft]
    | aggregation func argument ih =>
      obtain ⟨a, ha, h⟩ := Option.bind_eq_some_iff.1 h
      cases h
      rw [ih ha, Expr.draft]
  · rintro rfl
    exact expr?_draft e

theorem mapM_expr?_eq_some_iff {drafts : List Draft} {es : List Expr} :
    drafts.mapM expr? = some es ↔ drafts = es.map Expr.draft := by
  rw [mapM_eq_some_iff, ← List.forall₂_eq_eq_eq, List.forall₂_map_right_iff]
  simp only [expr?_eq_some_iff]

theorem exprs_eq_ok_iff {s : Schema} {drafts : List Draft} {es : List Expr} :
    exprs s drafts = .ok es ↔ drafts = es.map Expr.draft := by
  rw [← mapM_expr?_eq_some_iff, exprs]
  cases drafts.mapM expr? with
  | none => simp
  | some es' => simp

@[simp] theorem isAggregation_draft (e : Expr) : e.draft.isAggregation = e.isAggregation := by
  cases e <;> rfl

@[simp] theorem refusal_draft (e : Expr) : e.draft.refusal = .notAggregation e.display := by
  have h := expr?_draft e
  cases e <;> simp only [Expr.draft] at h ⊢ <;> simp [refusal, h]

theorem exists_of_fault? {s : Schema} {d : Draft} {u : UnknownColumn}
    (h : d.fault? s = some (.unknownColumn u)) : ∃ n, s.resolve n = .error u := by
  induction d with
  | bare | text | integer => cases h
  | column name =>
    rw [fault?] at h
    cases hn : s.resolve name with
    | ok f =>
      rw [hn] at h
      cases h
    | error e =>
      rw [hn] at h
      cases h
      exact ⟨name, hn⟩
  | logic op left right ihl ihr | arith op left right ihl ihr =>
    rcases Option.or_eq_some_iff.1 h with h | ⟨_, h⟩
    · exact ihl h
    · exact ihr h
  | aggregation func argument ih => exact ih h

theorem exists_of_exprs_error {s : Schema} {drafts : List Draft} {u : UnknownColumn}
    (h : exprs s drafts = .error (.unknownColumn u)) : ∃ n, s.resolve n = .error u := by
  rw [exprs] at h
  split at h
  · cases h
  · cases hf : drafts.findSome? (fault? s) with
    | none =>
      rw [hf] at h
      cases h
    | some e =>
      rw [hf] at h
      cases h
      obtain ⟨d, _, hd⟩ := List.exists_of_findSome?_eq_some hf
      exact exists_of_fault? hd

theorem refusal_ne_unknownColumn (d : Draft) (u : UnknownColumn) : d.refusal ≠ .unknownColumn u := by
  unfold refusal
  split
  · simp
  · split <;> simp

end Draft

namespace Plan
variable {input p : Plan} {log : List LogRecord}

@[simp] theorem projectDrafts_map_draft (exprs : List Expr) :
    input.projectDrafts (exprs.map Expr.draft) = input.buildProjection exprs := by
  rw [projectDrafts, Draft.exprs_map_draft]

@[simp] theorem selectDraft_draft (predicate : Expr) :
    input.selectDraft predicate.draft = input.buildSelection predicate := by
  rw [selectDraft, ← List.map_singleton, Draft.exprs_map_draft]

@[simp] theorem aggregateDrafts_map_draft (groups aggregates : List Expr) :
    input.aggregateDrafts (groups.map Expr.draft) (aggregates.map Expr.draft) =
      input.buildAggregate groups aggregates := by
  have hf : (aggregates.map Expr.draft).find? (fun d => !d.isAggregation) =
      (aggregates.find? fun e => !e.isAggregation).map Expr.draft := by
    rw [List.find?_map]
    simp only [Function.comp_def, Draft.isAggregation_draft]
  cases hn : aggregates.find? fun e => !e.isAggregation with
  | some e => simp [aggregateDrafts, buildAggregate, hf, hn]
  | none =>
    rw [aggregateDrafts, hf, hn, ← List.map_append]
    simp only [Option.map_none, Draft.exprs_map_draft, List.length_map, List.take_left,
      List.drop_left]

theorem projectDrafts_eq_iff {drafts : List Draft} :
    input.projectDrafts drafts = ⟨log, .ok p⟩ ↔
      ∃ exprs, drafts = exprs.map Expr.draft ∧ input.buildProjection exprs = ⟨log, .ok p⟩ := by
  constructor
  · intro h
    cases he : Draft.exprs input.schema drafts with
    | error e =>
      rw [projectDrafts, he] at h
      cases h
    | ok exprs =>
      rw [projectDrafts, he] at h
      exact ⟨exprs, Draft.exprs_eq_ok_iff.1 he, h⟩
  · rintro ⟨exprs, rfl, h⟩
    rw [projectDrafts_map_draft, h]

theorem selectDraft_eq_iff {draft : Draft} :
    input.selectDraft draft = ⟨log, .ok p⟩ ↔
      ∃ predicate, draft = Expr.draft predicate ∧
        input.buildSelection predicate = ⟨log, .ok p⟩ := by
  constructor
  · intro h
    cases he : Draft.exprs input.schema [draft] with
    | error e =>
      rw [selectDraft, he] at h
      cases h
    | ok exprs =>
      -- one draft stands for one expression, so there is a single predicate
      obtain ⟨predicate, hp, hd⟩ := List.map_eq_singleton_iff.1 (Draft.exprs_eq_ok_iff.1 he).symm
      subst hp hd
      exact ⟨predicate, rfl, by rw [← selectDraft_draft, h]⟩
  · rintro ⟨predicate, rfl, h⟩
    rw [selectDraft_draft, h]

theorem aggregateDrafts_eq_iff {groups aggregates : List Draft} :
    input.aggregateDrafts groups aggregates = ⟨log, .ok p⟩ ↔
      ∃ gs as, groups = gs.map Expr.draft ∧ aggregates = as.map Expr.draft ∧
        input.buildAggregate gs as = ⟨log, .ok p⟩ := by
  constructor
  · intro h
    cases hn : aggregates.find? fun d => !d.isAggregation with
    | some d =>
      rw [aggregateDrafts, hn] at h
      cases h
    | none =>
      cases he : Draft.exprs input.schema (groups ++ aggregates) with
      | error e =>
        rw [aggregateDrafts, hn, he] at h
        cases h
      | ok exprs =>
        obtain ⟨gs, as, rfl, rfl, rfl⟩ := List.append_eq_map_iff.1 (Draft.exprs_eq_ok_iff.1 he)
        exact ⟨gs, as, rfl, rfl, by rw [← aggregateDrafts_map_draft, h]⟩
  · rintro ⟨gs, as, rfl, rfl, h⟩
    rw [aggregateDrafts_map_draft, h]

/-- Whatever is built over an input is a node that the input supports, with the node's records. -/
theorem supports_of_projectDrafts {drafts : List Draft}
    (h : input.projectDrafts drafts = ⟨log, .ok p⟩) : input.Supports p ∧ log = p.records := by
  obtain ⟨exprs, -, h⟩ := projectDrafts_eq_iff.1 h
  obtain ⟨derived, hd, rfl, hl⟩ := buildProjection_eq_iff.1 h
  exact ⟨.projection hd, hl⟩

theorem supports_of_selectDraft {draft : Draft} (h : input.selectDraft draft = ⟨log, .ok p⟩) :
    input.Supports p ∧ log = p.records := by
  obtain ⟨predicate, -, h⟩ := selectDraft_eq_iff.1 h
  obtain ⟨⟨f, hf⟩, rfl, hl⟩ := buildSelection_eq_iff.1 h
  exact ⟨.selection hf, hl⟩

theorem supports_of_aggregateDrafts {groups aggregates : List Draft}
    (h : input.aggregateDrafts groups aggregates = ⟨log, .ok p⟩) :
    input.Supports p ∧ log = p.records := by
  obtain ⟨gs, as, -, -, h⟩ := aggregateDrafts_eq_iff.1 h
  obtain ⟨derived, ha, hd, rfl, hl⟩ := buildAggregate_eq_iff.1 h
  exact ⟨.aggregate ha hd, hl⟩

/-! An input gives its schema to a node and nothing else, so that over another input of this schema
the same node is built. -/

theorem projectDrafts_onto {input' : Plan} (hs : input'.schema = input.schema) {drafts : List Draft} :
    input'.projectDrafts drafts = (input.projectDrafts drafts).map input'.onto := by
  rw [projectDrafts, projectDrafts, hs]
  cases Draft.exprs input.schema drafts with
  | error e => rfl
  | ok exprs =>
    simp only [buildProjection, hs]
    cases input.schema.derive exprs <;> rfl

theorem selectDraft_onto {input' : Plan} (hs : input'.schema = input.schema) {draft : Draft} :
    input'.selectDraft draft = (input.selectDraft draft).map input'.onto := by
  rw [selectDraft, selectDraft, hs]
  split
  · next predicate _ =>
    simp only [buildSelection, hs]
    cases predicate.field input.schema <;> rfl
  · rfl
  · rfl

theorem aggregateDrafts_onto {input' : Plan} (hs : input'.schema = input.schema)
    {groups aggregates : List Draft} :
    input'.aggregateDrafts groups aggregates =
      (input.aggregateDrafts groups aggregates).map input'.onto := by
  rw [aggregateDrafts, aggregateDrafts, hs]
  split
  · rfl
  · cases Draft.exprs input.schema (groups ++ aggregates) with
    | error e => rfl
    | ok exprs =>
      simp only [buildAggregate, hs]
      split
      · rfl
      · cases input.schema.derive (exprs.take groups.length ++ exprs.drop groups.length) <;> rfl

variable {u : UnknownColumn}

theorem exists_of_projectDrafts_error {drafts : List Draft}
    (h : (input.projectDrafts drafts).result = .error (.unknownColumn u)) :
    ∃ n, input.schema.resolve n = .error u := by
  rw [projectDrafts] at h
  split at h
  · next he =>
    cases h
    exact Draft.exists_of_exprs_error he
  · rw [buildProjection] at h
    split at h
    · next he =>
      cases h
      exact (Schema.derive_eq_error_iff.1 he).exists_resolve
    · cases h

theorem exists_of_selectDraft_error {draft : Draft}
    (h : (input.selectDraft draft).result = .error (.unknownColumn u)) :
    ∃ n, input.schema.resolve n = .error u := by
  rw [selectDraft] at h
  split at h
  · rw [buildSelection] at h
    split at h
    · next he =>
      cases h
      exact (Expr.field_eq_error_iff.1 he).exists_resolve
    · cases h
  · cases h
  · next he =>
    cases h
    exact Draft.exists_of_exprs_error he

theorem exists_of_aggregateDrafts_error {groups aggregates : List Draft}
    (h : (input.aggregateDrafts groups aggregates).result = .error (.unknownColumn u)) :
    ∃ n, input.schema.resolve n = .error u := by
  rw [aggregateDrafts] at h
  split at h
  · next d _ => exact absurd (Except.error.inj h) (d.refusal_ne_unknownColumn u)
  · split at h
    · next he =>
      cases h
      exact Draft.exists_of_exprs_error he
    · rw [buildAggregate] at h
      split at h
      · cases h
      · split at h
        · next he =>
          cases h
          exact (Schema.derive_eq_error_iff.1 he).exists_resolve
        · cases h

end Plan
end QueryPlan
