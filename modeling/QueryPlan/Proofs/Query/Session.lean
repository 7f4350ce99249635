import Mathlib.Data.List.Chain
import QueryPlan.Proofs.Plan.Coherence
import QueryPlan.Proofs.Query.Opening
import QueryPlan.Proofs.Settings
/-!
# Sessions

A session makes configurations, contexts and queries in any order, each from those made before.
Whatever fails makes nothing. What a session has made is never changed, so that a query goes on to
read its file with the settings of the context it was opened in, whatever is made later.
-/
namespace QueryPlan

/-- What can be done in a session. What was made before is referred to by its place among its
kind. -/
inductive Operation where
  /-- A configuration with settings of its own. -/
  | configure (settings : List Setting)
  /-- A configuration with some settings of another one changed. -/
  | adjust (config : Nat) (settings : List Setting)
  /-- A context over a configuration. -/
  | enter (config : Nat)
  /-- A context that makes a configuration with the standard settings. -/
  | enterStandard
  | csv (context : Nat) (schema : Schema) (path : String)
  | step (opened : Nat) (s : Step)

inductive Refusal where
  /-- What is referred to was not made. -/
  | absent
  | config (e : ConfigError)
  | context (e : ContextError)
  | plan (e : PlanError)

structure Opened where
  query : Query
  context : Nat
  schema : Schema
  path : String

structure Session where
  configs : List Config
  contexts : List Context
  opened : List Opened

namespace Plan

/-- A plan is a chain of nodes, each the input of the one before, and only the last has no input. -/
structure EndsIn (p last : Plan) : Prop where
  linked : p.nodes.IsChain fun n next => n.input? = some next
  single : ∃ above, p.nodes = above ++ [last] ∧ ∀ n ∈ above, n.input? ≠ none
  bottom : last.input? = none

theorem endsIn_scan (path : String) (bound : Schema) (source : CsvSource) (columns : List String) :
    (Plan.scan path bound source columns).EndsIn (.scan path bound source columns) :=
  ⟨.singleton _, ⟨[], rfl, by simp⟩, rfl⟩

theorem head?_nodes (p : Plan) : p.nodes.head? = some p := by
  cases p <;> rfl

theorem EndsIn.supports {input p last : Plan} (h : input.EndsIn last) (hs : input.Supports p) :
    p.EndsIn last := by
  obtain ⟨hlinked, ⟨above, habove, hinputs⟩, hbottom⟩ := h
  refine ⟨?_, ⟨p :: above, ?_, ?_⟩, hbottom⟩
  · rw [hs.nodes]
    refine hlinked.cons fun next hnext => ?_
    rw [head?_nodes] at hnext
    rw [hs.input?, hnext]
  · rw [hs.nodes, habove, List.cons_append]
  · rw [List.forall_mem_cons, hs.input?]
    exact ⟨Option.some_ne_none _, hinputs⟩

end Plan

namespace Session
variable {s t : Session} {op : Operation}

def empty : Session :=
  ⟨[], [], []⟩

def perform (s : Session) : Operation → Except Refusal Session
  | .configure settings =>
    match Config.standard.withSettings settings with
    | .ok c => .ok { s with configs := s.configs ++ [c] }
    | .error e => .error (.config e)
  | .adjust config settings =>
    match s.configs[config]? with
    | none => .error .absent
    | some old =>
      match old.withSettings settings with
      | .ok c => .ok { s with configs := s.configs ++ [c] }
      | .error e => .error (.config e)
  | .enter config =>
    match s.configs[config]? with
    | none => .error .absent
    | some c => .ok { s with contexts := s.contexts ++ [.ofConfig c] }
  | .enterStandard =>
    .ok { s with configs := s.configs ++ [.standard], contexts := s.contexts ++ [.ofConfig] }
  | .csv context schema path =>
    match s.contexts[context]? with
    | none => .error .absent
    | some c =>
      match (c.csv schema path).result with
      | .ok q => .ok { s with opened := s.opened ++ [⟨q, context, schema, path⟩] }
      | .error e => .error (.context e)
  | .step opened step =>
    match s.opened[opened]? with
    | none => .error .absent
    | some o =>
      match (o.query.step step).result with
      | .ok q => .ok { s with opened := s.opened ++ [{ o with query := q }] }
      | .error e => .error (.plan e)

def run (s : Session) : List Operation → Session
  | [] => s
  | op :: rest =>
    match s.perform op with
    | .ok next => next.run rest
    | .error _ => s.run rest

/-- What an operation that is not refused can make of a session. -/
inductive Makes (s : Session) : Session → Prop where
  | config (c : Config) : Makes s { s with configs := s.configs ++ [c] }
  | context {c : Config} (h : c ∈ s.configs) :
    Makes s { s with contexts := s.contexts ++ [.ofConfig c] }
  | standard :
    Makes s { s with configs := s.configs ++ [.standard], contexts := s.contexts ++ [.ofConfig] }
  | csv {i : Nat} {c : Context} {schema : Schema} {path : String} {log : List LogRecord} {q : Query}
    (hc : s.contexts[i]? = some c) (h : c.csv schema path = ⟨log, .ok q⟩) :
    Makes s { s with opened := s.opened ++ [⟨q, i, schema, path⟩] }
  | step {o : Opened} {step : Step} {log : List LogRecord} {q : Query}
    (ho : o ∈ s.opened) (h : o.query.step step = ⟨log, .ok q⟩) :
    Makes s { s with opened := s.opened ++ [{ o with query := q }] }

theorem makes_of_perform (h : s.perform op = .ok t) : s.Makes t := by
  cases op with
  | configure settings =>
    rw [perform] at h
    split at h
    · cases h
      exact .config _
    · cases h
  | adjust config settings =>
    rw [perform] at h
    split at h
    · cases h
    · split at h
      · cases h
        exact .config _
      · cases h
  | enter config =>
    rw [perform] at h
    split at h
    · cases h
    · next hc =>
      cases h
      exact .context (List.mem_of_getElem? hc)
  | enterStandard =>
    cases h
    exact .standard
  | csv context schema path =>
    rw [perform] at h
    split at h
    · cases h
    · next hc =>
      split at h
      · next hq =>
        cases h
        obtain ⟨log, hq⟩ := Outcome.result_eq_ok_iff.1 hq
        exact .csv hc hq
      · cases h
  | step opened step =>
    rw [perform] at h
    split at h
    · cases h
    · next ho =>
      split at h
      · next hq =>
        cases h
        obtain ⟨log, hq⟩ := Outcome.result_eq_ok_iff.1 hq
        exact .step (List.mem_of_getElem? ho) hq
      · cases h

/-- What is in a session is in another one, at the same places. -/
structure Within (s t : Session) : Prop where
  configs : s.configs <+: t.configs
  contexts : s.contexts <+: t.contexts
  opened : s.opened <+: t.opened

theorem Within.refl (s : Session) : s.Within s :=
  ⟨List.prefix_rfl, List.prefix_rfl, List.prefix_rfl⟩

theorem Within.trans {u : Session} (h : s.Within t) (h' : t.Within u) : s.Within u :=
  ⟨h.configs.trans h'.configs, h.contexts.trans h'.contexts, h.opened.trans h'.opened⟩

theorem Makes.within (h : s.Makes t) : s.Within t := by
  cases h with
  | config | context | standard | csv | step =>
    constructor <;> simp

end Session

/-- A query is a chain of nodes over the scan of a file that was opened in a context. -/
structure Opened.RootedIn (o : Opened) (c : Context) (source : CsvSource) : Prop where
  chain : o.query.plan.EndsIn (.scan o.path o.schema source [])
  distinct : o.schema.names.Nodup
  schema : source.schema = o.schema
  path : source.path = o.path
  config : source.config = c.config
  /-- The source accepts the settings that the context has checked. -/
  accepted : CsvSource.ofSettings o.schema o.path c.config.settings = .ok source

theorem Opened.rootedIn_of_csv {c : Context} {schema : Schema} {path : String}
    {log : List LogRecord} {q : Query} (h : c.csv schema path = ⟨log, .ok q⟩) (i : Nat) :
    (Opened.mk q i schema path).RootedIn c ⟨schema, path, c.config⟩ := by
  obtain ⟨hnodup, hplan, -⟩ := Context.csv_eq_ok_iff.1 h
  refine ⟨?_, hnodup, rfl, rfl, rfl, CsvSource.ofSettings_settings schema path c.config⟩
  rw [hplan]
  exact Plan.endsIn_scan ..

namespace Session
variable {s t : Session}

/-- What holds of a session at any time. -/
structure Sound (s : Session) : Prop where
  positive : ∀ c ∈ s.configs, 0 < c.batchSize
  overridden : ∀ c ∈ s.configs, ∀ first second c', c.withSettings first = .ok c' →
    c'.withSettings second = c.withSettings (Setting.overridden first second)
  known : ∀ c ∈ s.contexts, c.config ∈ s.configs
  refused : ∀ c ∈ s.contexts, ∀ schema path e, (c.csv schema path).result = .error e ↔
    ¬ schema.names.Nodup ∧ e = .duplicateNames schema.duplicateNames
  rooted : ∀ o ∈ s.opened, ∃ c source, s.contexts[o.context]? = some c ∧ o.RootedIn c source

/-- What is promised of configurations and contexts holds of any of them. So a session is sound once
its contexts have their configurations in it and its queries have their contexts. -/
theorem sound_of (hknown : ∀ c ∈ s.contexts, c.config ∈ s.configs)
    (hrooted : ∀ o ∈ s.opened, ∃ c source, s.contexts[o.context]? = some c ∧ o.RootedIn c source) :
    s.Sound where
  positive c _ := c.batchSize_pos
  overridden _ _ _ _ _ h := Config.withSettings_withSettings h
  known := hknown
  refused _ _ _ _ _ := Context.csv_result_eq_error_iff
  rooted := hrooted

theorem sound_empty : empty.Sound :=
  sound_of (by simp [empty]) (by simp [empty])

theorem Sound.rooted_within (h : s.Sound) (hw : s.Within t) : ∀ o ∈ s.opened,
    ∃ c source, t.contexts[o.context]? = some c ∧ o.RootedIn c source := by
  intro o ho
  obtain ⟨c, source, hc, hr⟩ := h.rooted o ho
  obtain ⟨hlt, rfl⟩ := List.getElem?_eq_some_iff.1 hc
  exact ⟨_, source, List.prefix_iff_getElem?.1 hw.contexts _ hlt, hr⟩

theorem Sound.makes (h : s.Sound) (hm : s.Makes t) : t.Sound := by
  have hrooted := h.rooted_within hm.within
  cases hm with
  | config c => exact sound_of (fun x hx => List.mem_append_left _ (h.known x hx)) hrooted
  | context hc =>
    refine sound_of ?_ hrooted
    rw [List.forall_mem_append, List.forall_mem_singleton]
    exact ⟨h.known, hc⟩
  | standard =>
    refine sound_of ?_ hrooted
    rw [List.forall_mem_append, List.forall_mem_singleton]
    exact ⟨fun x hx => List.mem_append_left _ (h.known x hx), List.mem_append_right _ (.head _)⟩
  | csv hc hq =>
    refine sound_of h.known ?_
    rw [List.forall_mem_append, List.forall_mem_singleton]
    exact ⟨hrooted, _, _, hc, Opened.rootedIn_of_csv hq _⟩
  | @step o _ _ _ ho hq =>
    -- the new query is one node longer and comes from the same file
    obtain ⟨c, source, hc, hr⟩ := h.rooted o ho
    refine sound_of h.known ?_
    rw [List.forall_mem_append, List.forall_mem_singleton]
    exact ⟨hrooted, c, source, hc,
      { hr with chain := hr.chain.supports (Query.supports_of_step hq).1 }⟩

theorem within_run (s : Session) (ops : List Operation) : s.Within (s.run ops) := by
  induction ops generalizing s with
  | nil => exact .refl s
  | cons op rest ih =>
    rw [run]
    split
    · next h => exact (makes_of_perform h).within.trans (ih _)
    · exact ih s

theorem Sound.run (h : s.Sound) (ops : List Operation) : (s.run ops).Sound := by
  induction ops generalizing s with
  | nil => exact h
  | cons op rest ih =>
    rw [Session.run]
    split
    · next hp => exact ih (h.makes (makes_of_perform hp))
    · exact ih h

/-- Whatever is done in a session, and whatever of it is refused, the session stays sound, and what
it has made stays as it is under all that is done later. -/
theorem sound_run (ops : List Operation) :
    (empty.run ops).Sound ∧ ∀ more, (empty.run ops).Within ((empty.run ops).run more) :=
  ⟨sound_empty.run ops, within_run _⟩

end Session
end QueryPlan
