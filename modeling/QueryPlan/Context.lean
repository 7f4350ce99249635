import QueryPlan.Query
/-!
# Contexts

A context hands its configuration to every source it opens. Opening a file gives the query over all
of its columns; the file is not read. A schema that repeats a name is refused, since its columns
could not be told apart.
-/
namespace QueryPlan

structure Context where
  config : Config
  deriving DecidableEq

inductive ContextError where
  /-- These names stand for several columns. -/
  | duplicateNames (names : List String)
  | plan (e : PlanError)
  deriving DecidableEq, Repr

def ContextError.message : ContextError → String
  | .duplicateNames names => "Duplicate column names: " ++ Text.quotedSet names
  | .plan e => e.message

namespace Context

def ofConfig (config : Config := .standard) : Context :=
  ⟨config⟩

def csv (c : Context) (schema : Schema) (path : String) : Outcome ContextError Query :=
  match schema.duplicateNames with
  | [] =>
    let scan := Plan.buildScan path schema ⟨schema, path, c.config⟩ (.names [])
    ((scan.mapError ContextError.plan).map Query.mk).after
      [⟨.debug, .context, "Registered CSV source " ++ path⟩]
  | names => .fail (.duplicateNames names)

end Context
end QueryPlan
