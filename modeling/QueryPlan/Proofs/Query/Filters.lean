import QueryPlan.Proofs.Query.Step
/-!
# Leaving filters out

A filter passes the schema of its input on, and a schema is all that a step takes from the query. So
any filters can be left out of a run: the steps that stay still succeed, log what they logged and put
the nodes they put, and the query at the end differs in nothing but the nodes of the filters that
are gone.
-/
namespace QueryPlan

inductive Edit where
  | keep (step : Step)
  | drop (predicate : Draft)
  deriving DecidableEq, Repr

namespace Edit
variable {α : Type}

def original : Edit → Step
  | .keep step => step
  | .drop predicate => .filter predicate

def remaining? : Edit → Option Step
  | .keep step => some step
  | .drop _ => none

def stays (e : Edit) : Bool :=
  e.remaining?.isSome

/-- Of what belongs to the steps of a run, one for each, what belongs to those that stay. -/
def kept (edits : List Edit) (xs : List α) : List α :=
  ((edits.zip xs).filter fun p => p.1.stays).map Prod.snd

def dropped (edits : List Edit) (xs : List α) : List α :=
  ((edits.zip xs).filter fun p => !p.1.stays).map Prod.snd

@[simp] theorem kept_keep (step : Step) (edits : List Edit) (x : α) (xs : List α) :
    kept (.keep step :: edits) (x :: xs) = x :: kept edits xs := rfl

@[simp] theorem kept_drop (predicate : Draft) (edits : List Edit) (x : α) (xs : List α) :
    kept (.drop predicate :: edits) (x :: xs) = kept edits xs := rfl

@[simp] theorem dropped_keep (step : Step) (edits : List Edit) (x : α) (xs : List α) :
    dropped (.keep step :: edits) (x :: xs) = dropped edits xs := rfl

@[simp] theorem dropped_drop (predicate : Draft) (edits : List Edit) (x : α) (xs : List α) :
    dropped (.drop predicate :: edits) (x :: xs) = x :: dropped edits xs := rfl

end Edit

def Made.display (m : Made) : String :=
  m.query.plan.display

structure Made.Alike (m m' : Made) : Prop where
  log : m'.log = m.log
  schema : m'.query.schema = m.query.schema
  display : m'.display = m.display

namespace Query
variable {q q' r : Query} {s : Step} {log : List LogRecord} {edits : List Edit} {made : List Made}

/-- Without some filters a run does the same over any query of the schema it started from. -/
theorem run_remaining (hs : q'.schema = q.schema)
    (h : q.run (edits.map Edit.original) = .ok made) :
    ∃ made', q'.run (edits.filterMap Edit.remaining?) = .ok made' ∧
      List.Forall₂ Made.Alike (Edit.kept edits made) made' ∧
      (q'.last made').schema = (q.last made).schema := by
  induction edits generalizing q q' made with
  | nil =>
    cases h
    exact ⟨[], rfl, .nil, hs⟩
  | cons edit edits ih =>
    obtain ⟨m, more, hm, hmore, rfl⟩ := run_cons_eq_ok_iff.1 h
    cases edit with
    | keep step =>
      let m' : Made := ⟨m.log, ⟨q'.plan.onto m.query.plan⟩⟩
      have hstep : q'.step step = ⟨m'.log, .ok m'.query⟩ := step_onto hs hm
      have hschema : m'.query.schema = m.query.schema := schema_of_step_onto hm hs
      obtain ⟨more', hrun, halike, hlast⟩ := ih hschema hmore
      have hfirst : m.Alike m' := ⟨rfl, hschema, Plan.display_onto _ _⟩
      rw [Edit.kept_keep]
      exact ⟨m' :: more', run_cons_eq_ok_iff.2 ⟨m', more', hstep, hrun, rfl⟩,
        .cons hfirst halike, hlast⟩
    | drop predicate =>
      -- the filter leaves the schema as it was, so the other run is where it has to be
      have hsame := schema_of_filter hm
      rw [Edit.kept_drop]
      exact ih (hs.trans hsame.symm) hmore

theorem selection_of_dropped (h : q.run (edits.map Edit.original) = .ok made) :
    ∀ m ∈ Edit.dropped edits made, ∃ input predicate,
      m.query.plan = .selection input predicate := by
  induction edits generalizing q made with
  | nil =>
    intro m hm
    cases hm
  | cons edit edits ih =>
    obtain ⟨m, more, hm, hmore, rfl⟩ := run_cons_eq_ok_iff.1 h
    cases edit with
    | keep step =>
      rw [Edit.dropped_keep]
      exact ih hmore
    | drop predicate =>
      obtain ⟨e, hplan⟩ := plan_of_filter hm
      rw [Edit.dropped_drop, List.forall_mem_cons]
      exact ⟨⟨_, e, hplan⟩, ih hmore⟩

theorem displays_last {steps : List Step} (h : q.run steps = .ok made) :
    (q.last made).displays = (made.map Made.display).reverse ++ q.displays := by
  rw [displays, nodes_last h, List.map_append, List.map_reverse, List.map_map]
  rfl

/-- Filters are left out of a run without a trace: the other steps do what they did, and the plan
lacks the nodes of these filters and nothing else. -/
theorem run_without_filters (h : q.run (edits.map Edit.original) = .ok made) :
    ∃ made', q.run (edits.filterMap Edit.remaining?) = .ok made' ∧
      List.Forall₂ Made.Alike (Edit.kept edits made) made' ∧
      (q.last made').schema = (q.last made).schema ∧
      (q.last made).displays = (made.map Made.display).reverse ++ q.displays ∧
      (q.last made').displays =
        ((Edit.kept edits made).map Made.display).reverse ++ q.displays ∧
      ∀ m ∈ Edit.dropped edits made, ∃ input predicate,
        m.query.plan = .selection input predicate := by
  obtain ⟨made', hrun, halike, hlast⟩ := run_remaining rfl h
  have hdisplays := map_eq_map_of_forall₂ halike fun _ _ hm => hm.display.symm
  refine ⟨made', hrun, halike, hlast, displays_last h, ?_, selection_of_dropped h⟩
  rw [hdisplays, displays_last hrun]

private def letters : Query :=
  ⟨.ofFile "t.csv" ⟨[⟨"a", .int64, false⟩]⟩⟩

/-- Of two filters the lower one is left out, below a projection that repeats a name. -/
theorem run_without_lower_filter : ∃ made made',
    letters.run [.filter (.logic .gt (.column "a") (.integer 1)),
      .filter (.logic .lt (.column "a") (.integer 9)), .select [.bare "a", .text "a"]] = .ok made ∧
    letters.run [.filter (.logic .lt (.column "a") (.integer 9)), .select [.bare "a", .text "a"]] =
      .ok made' ∧
    (letters.last made').schema = (letters.last made).schema ∧
    (letters.last made).displays =
      ["Projection: a, 'a'", "Filter: a<9", "Filter: a>1", "Scan: t.csv, projection=None"] ∧
    (letters.last made').displays =
      ["Projection: a, 'a'", "Filter: a<9", "Scan: t.csv, projection=None"] := by
  let edits : List Edit :=
    [.drop (.logic .gt (.column "a") (.integer 1)),
      .keep (.filter (.logic .lt (.column "a") (.integer 9))), .keep (.select [.bare "a", .text "a"])]
  have hrun : letters.run (edits.map Edit.original) = .ok _ := rfl
  obtain ⟨made', hrun', halike, hschema, hdisplays, hdisplays', -⟩ := run_without_filters hrun
  exact ⟨_, made', hrun, hrun', hschema, hdisplays, hdisplays'⟩

end Query
end QueryPlan
