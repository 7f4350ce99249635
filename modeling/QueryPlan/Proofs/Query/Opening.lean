import QueryPlan.Context
import QueryPlan.Proofs.Plan.Building
import QueryPlan.Proofs.Schema.Repetition
/-!
# Files opened in a context

Opening a file looks at nothing but the schema: it is refused exactly when a name repeats, and else
gives the scan of all columns, whose source has the settings of the context.
-/
namespace QueryPlan
namespace Context
variable {schema : Schema}

def scanOf (c : Context) (schema : Schema) (path : String) : Plan :=
  .scan path schema ⟨schema, path, c.config⟩ []

/-- The schema of the source is the one the scan is bound to, so that the scan is built. -/
theorem buildScan_scanOf (c : Context) (schema : Schema) (path : String) :
    Plan.buildScan path schema ⟨schema, path, c.config⟩ (.names []) =
      ⟨(c.scanOf schema path).records, .ok (c.scanOf schema path)⟩ :=
  Plan.buildScan_eq_iff.2 ⟨[], rfl, rfl, by simp, rfl, rfl⟩

theorem csv_of_nodup (h : schema.names.Nodup) (c : Context) (path : String) :
    c.csv schema path =
      ⟨⟨.debug, .context, "Registered CSV source " ++ path⟩ :: (c.scanOf schema path).records,
        .ok ⟨c.scanOf schema path⟩⟩ := by
  rw [csv, Schema.duplicateNames_eq_nil_iff.2 h]
  simp only [buildScan_scanOf]
  rfl

theorem csv_of_not_nodup (h : ¬ schema.names.Nodup) (c : Context) (path : String) :
    c.csv schema path = .fail (.duplicateNames schema.duplicateNames) := by
  rw [csv]
  split
  · next hd => exact absurd (Schema.duplicateNames_eq_nil_iff.1 hd) h
  · rfl

theorem csv_eq_ok_iff {c : Context} {path : String} {log : List LogRecord} {q : Query} :
    c.csv schema path = ⟨log, .ok q⟩ ↔
      schema.names.Nodup ∧ q.plan = c.scanOf schema path ∧
        log = ⟨.debug, .context, "Registered CSV source " ++ path⟩ ::
          (c.scanOf schema path).records := by
  by_cases h : schema.names.Nodup
  · rw [csv_of_nodup h]
    cases q
    simp [h, and_comm, eq_comm]
  · rw [csv_of_not_nodup h]
    simp [h, Outcome.fail]

theorem csv_result_eq_error_iff {c : Context} {path : String} {e : ContextError} :
    (c.csv schema path).result = .error e ↔
      ¬ schema.names.Nodup ∧ e = .duplicateNames schema.duplicateNames := by
  by_cases h : schema.names.Nodup
  · rw [csv_of_nodup h]
    simp [h]
  · rw [csv_of_not_nodup h]
    simp [h, Outcome.fail, eq_comm]

end Context
end QueryPlan
