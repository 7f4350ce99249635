import QueryPlan.Proofs.Plan.Coherence
/-!
# Plans that are the same

Two plans are the same when they agree in all but their sources and the schemas they keep. For plans
that were constructed this is enough: the schemas they keep are derived from what is compared, so that
the same plans have one schema and one explanation, and any step leads from them to the same plans
again or fails with one error.
-/
namespace QueryPlan

inductive Outcome.Matches {ε α β : Type} (R : α → β → Prop) : Outcome ε α → Outcome ε β → Prop where
  | built {log : List LogRecord} {a : α} {b : β} (h : R a b) : Matches R ⟨log, .ok a⟩ ⟨log, .ok b⟩
  | failed {log : List LogRecord} {e : ε} : Matches R ⟨log, .error e⟩ ⟨log, .error e⟩

theorem Outcome.matches_map {ε α β : Type} {R : α → β → Prop} {f : α → β} {o : Outcome ε α}
    (h : ∀ log a, o = ⟨log, .ok a⟩ → R a (f a)) : o.Matches R (o.map f) := by
  obtain ⟨log, x⟩ := o
  cases x with
  | error e => exact .failed
  | ok a => exact .built (h log a rfl)

namespace Plan
variable {p q r : Plan}

/-- Plans of the same nodes. The sources and the schemas that are kept may differ. -/
inductive SameNodes : Plan → Plan → Prop where
  | scan (path : String) (bound : Schema) (source source' : CsvSource) (columns : List String) :
    SameNodes (.scan path bound source columns) (.scan path bound source' columns)
  | projection {p q : Plan} (h : SameNodes p q) (exprs : List Expr) (derived derived' : Schema) :
    SameNodes (.projection p exprs derived) (.projection q exprs derived')
  | selection {p q : Plan} (h : SameNodes p q) (predicate : Expr) :
    SameNodes (.selection p predicate) (.selection q predicate)
  | aggregate {p q : Plan} (h : SameNodes p q) (groups aggregates : List Expr)
    (derived derived' : Schema) :
    SameNodes (.aggregate p groups aggregates derived) (.aggregate q groups aggregates derived')

theorem sameNodes_of_same (h : p.same q = true) : p.SameNodes q := by
  induction p generalizing q with
  | scan path bound source columns =>
    cases q <;> simp only [same, Bool.and_eq_true, beq_iff_eq, Bool.false_eq_true] at h
    obtain ⟨⟨rfl, rfl⟩, rfl⟩ := h
    exact .scan ..
  | projection input exprs derived ih =>
    cases q <;> simp only [same, Bool.and_eq_true, beq_iff_eq, Bool.false_eq_true] at h
    obtain ⟨hinput, rfl⟩ := h
    exact .projection (ih hinput) ..
  | selection input predicate ih =>
    cases q <;> simp only [same, Bool.and_eq_true, beq_iff_eq, Bool.false_eq_true] at h
    obtain ⟨hinput, rfl⟩ := h
    exact .selection (ih hinput) ..
  | aggregate input groups aggregates derived ih =>
    cases q <;> simp only [same, Bool.and_eq_true, beq_iff_eq, Bool.false_eq_true] at h
    obtain ⟨⟨hinput, rfl⟩, rfl⟩ := h
    exact .aggregate (ih hinput) ..

theorem SameNodes.linesFrom (h : p.SameNodes q) (depth : Nat) :
    p.linesFrom depth = q.linesFrom depth := by
  induction h generalizing depth with
  | scan => rfl
  | projection h exprs derived derived' ih =>
    rw [Plan.linesFrom, Plan.linesFrom, ih]
    rfl
  | selection h predicate ih =>
    rw [Plan.linesFrom, Plan.linesFrom, ih]
    rfl
  | aggregate h groups aggregates derived derived' ih =>
    rw [Plan.linesFrom, Plan.linesFrom, ih]
    rfl

/-- Nothing that is left out of the comparison is used where a schema is derived anew. -/
theorem SameNodes.rederived (h : p.SameNodes q) : p.rederived = q.rederived := by
  induction h with
  | scan => rfl
  | projection h exprs derived derived' ih => rw [Plan.rederived, Plan.rederived, ih]
  | selection h predicate ih => rw [Plan.rederived, Plan.rederived, ih]
  | aggregate h groups aggregates derived derived' ih =>
    rw [Plan.rederived, Plan.rederived, ih]

theorem SameNodes.schema (h : p.SameNodes q) (hp : p.WellBuilt) (hq : q.WellBuilt) :
    p.schema = q.schema := by
  have hr := hp.rederived
  rw [h.rederived, hq.rederived] at hr
  exact (Except.ok.inj hr).symm

theorem Supports.same_onto (hs : p.Supports r) (h : p.same q = true) :
    r.same (q.onto r) = true := by
  cases hs <;> simp [onto, same, h]

structure Interchangeable (p q : Plan) : Prop where
  schema : p.schema = q.schema
  explain : p.explain = q.explain
  step : ∀ s, (Query.step ⟨p⟩ s).Matches
    (fun r r' => r.plan.same r'.plan = true ∧ r.schema = r'.schema) (Query.step ⟨q⟩ s)

/-- Plans that are the same can stand for each other, whatever their sources are. -/
theorem Constructed.interchangeable {log log' : List LogRecord} (hp : Constructed log p)
    (hq : Constructed log' q) (h : p.same q = true) : p.Interchangeable q := by
  have hnodes := sameNodes_of_same h
  have hschema := hnodes.schema hp.wellBuilt.1 hq.wellBuilt.1
  have hquery : (Query.mk q).schema = (Query.mk p).schema := hschema.symm
  refine ⟨hschema, ?_, fun s => ?_⟩
  · rw [explain, explain, hnodes.linesFrom]
  · rw [Query.step_eq_map_onto hquery s]
    refine Outcome.matches_map fun made r hr => ⟨?_, ?_⟩
    · exact (Query.supports_of_step hr).1.same_onto h
    · exact (Query.schema_of_step_onto hr hquery).symm

private def letteredIn (c : Config) : Plan :=
  .scan "t.csv" ⟨[⟨"a", .int64, false⟩]⟩ ⟨⟨[⟨"a", .int64, false⟩]⟩, "t.csv", c⟩ []

/-- Files opened with other settings, below a projection that repeats a name. -/
theorem interchangeable_of_other_settings : ∃ log log' p q,
    Constructed log p ∧ Constructed log' q ∧ p.same q = true ∧ p.source ≠ q.source ∧
    p.Interchangeable q := by
  let narrow : Config := ⟨1, false, ";", by decide⟩
  have hp : Context.ofConfig.csv (letteredIn .standard).schema "t.csv" =
    ⟨_, .ok ⟨letteredIn .standard⟩⟩ := rfl
  have hq : Context.csv ⟨narrow⟩ (letteredIn narrow).schema "t.csv" =
    ⟨_, .ok ⟨letteredIn narrow⟩⟩ := rfl
  have hp' : Query.step ⟨letteredIn .standard⟩ (.select [.bare "a", .text "a"]) = ⟨_, .ok _⟩ := rfl
  have hq' : Query.step ⟨letteredIn narrow⟩ (.select [.bare "a", .text "a"]) = ⟨_, .ok _⟩ := rfl
  have hpc := (Constructed.csv hp).step hp'
  have hqc := (Constructed.csv hq).step hq'
  exact ⟨_, _, _, _, hpc, hqc, by decide, by decide, Constructed.interchangeable hpc hqc (by decide)⟩

end Plan
end QueryPlan
