import QueryPlan.Expr.Resolve
import QueryPlan.Proofs.Schema.Selection
/-!
# Resolving expressions

An expression resolves exactly when each column it refers to is carried by one field, and the name
of its field does not depend on the schema. All it takes from a schema is the answers for these
columns: over two schemas that answer alike it has the same field, or the same column is refused for
the same reason.
-/
namespace QueryPlan

/-- Two refusals of one column for one reason. The names that were available may differ. -/
structure UnknownColumn.Alike (e e' : UnknownColumn) : Prop where
  column : e.column = e'.column
  ambiguous : e.ambiguous = e'.ambiguous

inductive ResolvedAlike {α : Type} : Except UnknownColumn α → Except UnknownColumn α → Prop where
  | found (a : α) : ResolvedAlike (.ok a) (.ok a)
  | refused {e e' : UnknownColumn} (h : e.Alike e') : ResolvedAlike (.error e) (.error e')

namespace ResolvedAlike
variable {α β : Type} {x y : Except UnknownColumn α}

theorem bind {f g : α → Except UnknownColumn β} (h : ResolvedAlike x y)
    (hfg : ∀ a, ResolvedAlike (f a) (g a)) : ResolvedAlike (x >>= f) (y >>= g) := by
  cases h with
  | found a => exact hfg a
  | refused h => exact .refused h

theorem map (f : α → β) (h : ResolvedAlike x y) : ResolvedAlike (x.map f) (y.map f) := by
  cases h with
  | found a => exact .found (f a)
  | refused h => exact .refused h

theorem mapM {f g : β → Except UnknownColumn α} {xs : List β}
    (h : ∀ b ∈ xs, ResolvedAlike (f b) (g b)) : ResolvedAlike (xs.mapM f) (xs.mapM g) := by
  induction xs with
  | nil => exact .found []
  | cons b xs ih =>
    rw [mapM_cons_eq, mapM_cons_eq]
    have hrest := ih fun c hc => h c (List.mem_cons_of_mem _ hc)
    exact (h b List.mem_cons_self).bind fun a => hrest.map (a :: ·)

theorem eq_ok {a : α} (h : ResolvedAlike x y) (hx : x = .ok a) : y = .ok a := by
  subst hx
  cases h
  rfl

end ResolvedAlike

namespace Expr

def fieldName : Expr → String
  | .column name => name
  | .text value => value
  | .integer value => toString value.toInt
  | .logic op _ _ => op.fieldName
  | .arith op _ _ => op.fieldName
  | .aggregation func _ => func.fieldName

theorem name_of_field {s : Schema} {e : Expr} {f : Field} (h : e.field s = .ok f) :
    f.name = e.fieldName := by
  cases e with
  | column name => exact Schema.name_of_resolve h
  | text value | integer value =>
    cases h
    rfl
  | logic op left right | arith op left right =>
    obtain ⟨_, -, h⟩ := bind_eq_ok_iff.1 h
    obtain ⟨_, -, h⟩ := bind_eq_ok_iff.1 h
    cases h
    rfl
  | aggregation func argument =>
    obtain ⟨_, -, h⟩ := bind_eq_ok_iff.1 h
    cases h
    rfl

private theorem exists_binary_iff {x y : Except UnknownColumn Field} {f : Field → Field} :
    (∃ g, (x >>= fun a => y >>= fun _ => pure (f a)) = .ok g) ↔
      (∃ a, x = .ok a) ∧ ∃ b, y = .ok b := by
  cases x with
  | error e => simp [bind, Except.bind]
  | ok a =>
    cases y with
    | error e => simp [bind, Except.bind]
    | ok b => simp [bind, Except.bind, pure, Except.pure]

private theorem exists_unary_iff {x : Except UnknownColumn Field} {f : Field → Field} :
    (∃ g, (x >>= fun a => pure (f a)) = .ok g) ↔ ∃ a, x = .ok a := by
  cases x with
  | error e => simp [bind, Except.bind]
  | ok a => simp [bind, Except.bind, pure, Except.pure]

theorem exists_field_iff {s : Schema} {e : Expr} :
    (∃ f, e.field s = .ok f) ↔ ∀ n ∈ e.columns, s.names.count n = 1 := by
  induction e with
  | column name =>
    rw [columns, List.forall_mem_singleton]
    exact Schema.exists_resolve_iff
  | text | integer => simp [field, columns]
  | logic op left right ihl ihr | arith op left right ihl ihr =>
    rw [columns, List.forall_mem_append, ← ihl, ← ihr]
    exact exists_binary_iff
  | aggregation func argument ih =>
    rw [columns, ← ih]
    exact exists_unary_iff

/-- An expression is resolved alike over schemas that answer alike for its columns. -/
theorem alike_field {s t : Schema} {e : Expr}
    (h : ∀ n ∈ e.columns, ResolvedAlike (s.resolve n) (t.resolve n)) :
    ResolvedAlike (e.field s) (e.field t) := by
  induction e with
  | column name => exact h name (List.mem_singleton_self name)
  | text value | integer value => exact .found _
  | logic op left right ihl ihr | arith op left right ihl ihr =>
    rw [columns, List.forall_mem_append] at h
    exact (ihl h.1).bind fun _ => (ihr h.2).bind fun _ => .found _
  | aggregation func argument ih => exact (ih h).bind fun _ => .found _

end Expr

namespace Schema
variable {s t d : Schema} {exprs : List Expr}

/-- A name stands for the same field in both schemas, or it resolves in neither for one reason. -/
def AgreeAt (s t : Schema) (name : String) : Prop :=
  (∃ f, s.resolve name = .ok f ∧ t.resolve name = .ok f) ∨
    ∃ e e', s.resolve name = .error e ∧ t.resolve name = .error e' ∧ e.ambiguous = e'.ambiguous

def AgreeOn (s t : Schema) (exprs : List Expr) : Prop :=
  ∀ n ∈ exprs.flatMap Expr.columns, s.AgreeAt t n

theorem AgreeAt.alike {name : String} (h : s.AgreeAt t name) :
    ResolvedAlike (s.resolve name) (t.resolve name) := by
  obtain ⟨f, hs, ht⟩ | ⟨e, e', hs, ht, ha⟩ := h
  · rw [hs, ht]
    exact .found f
  · have hc : e.column = e'.column := (error_of_resolve hs).1.trans (error_of_resolve ht).1.symm
    rw [hs, ht]
    exact .refused ⟨hc, ha⟩

theorem AgreeOn.alike_field (h : s.AgreeOn t exprs) {e : Expr} (he : e ∈ exprs) :
    ResolvedAlike (e.field s) (e.field t) :=
  Expr.alike_field fun n hn => (h n (List.mem_flatMap.2 ⟨e, he, hn⟩)).alike

theorem AgreeOn.alike_derive (h : s.AgreeOn t exprs) :
    ResolvedAlike (s.derive exprs) (t.derive exprs) :=
  (ResolvedAlike.mapM fun _ he => h.alike_field he).bind fun _ => .found _

theorem derive_eq_ok_iff :
    s.derive exprs = .ok d ↔ List.Forall₂ (fun e f => e.field s = .ok f) exprs d.fields := by
  rw [← mapM_eq_ok_iff, derive, bind_eq_ok_iff]
  constructor
  · rintro ⟨fields, hf, h⟩
    cases h
    exact hf
  · intro h
    exact ⟨d.fields, h, rfl⟩

theorem names_of_derive (h : s.derive exprs = .ok d) : d.names = exprs.map Expr.fieldName := by
  rw [derive_eq_ok_iff] at h
  exact (map_eq_map_of_forall₂ h fun _ _ hf => (Expr.name_of_field hf).symm).symm

theorem exists_field_of_derive (h : s.derive exprs = .ok d) {e : Expr} (he : e ∈ exprs) :
    ∃ f ∈ d.fields, e.field s = .ok f :=
  exists_of_mem_left (derive_eq_ok_iff.1 h) he

end Schema
end QueryPlan
