import QueryPlan.Proofs.Expr.Resolution
import QueryPlan.Proofs.Schema.Repetition
/-!
# Columns that are refused

Columns are looked up from the left, so the first one that does not resolve is the one reported: with
every name that was available, and whether several fields carry its name or none does. An expression
is refused for the first of its columns from the left, and a list of expressions for the first of
them all.
-/
namespace QueryPlan

namespace Schema
variable {s : Schema} {names more : List String} {u : UnknownColumn}

structure Reports (s : Schema) (u : UnknownColumn) : Prop where
  unresolved : s.names.count u.column ≠ 1
  available : u.available = s.names
  ambiguous : u.ambiguous = true ↔ 2 ≤ s.names.count u.column

structure Refuses (s : Schema) (names : List String) (u : UnknownColumn) : Prop extends
    s.Reports u where
  first : ∃ before after, names = before ++ u.column :: after ∧
    ∀ n ∈ before, s.names.count n = 1

theorem refuses_iff : s.Refuses names u ↔ names.mapM s.resolve = .error u := by
  rw [mapM_eq_error_iff]
  simp only [exists_resolve_iff, resolve_eq_error_iff]
  constructor
  · rintro ⟨⟨hne, havailable, hambiguous⟩, before, after, hsplit, hb⟩
    refine ⟨before, u.column, after, hsplit, hb, hne, ?_⟩
    obtain ⟨column, available, ambiguous⟩ := u
    dsimp only at havailable hambiguous
    rw [havailable, UnknownColumn.mk.injEq, Bool.eq_iff_iff, decide_eq_true_iff]
    exact ⟨rfl, rfl, hambiguous⟩
  · rintro ⟨before, n, after, hsplit, hb, hne, rfl⟩
    exact ⟨⟨hne, rfl, decide_eq_true_iff⟩, before, after, hsplit, hb⟩

theorem select_eq_error_iff : s.select names = .error u ↔ s.Refuses names u := by
  rw [refuses_iff, select, bind_eq_error_iff]
  refine or_iff_left ?_
  rintro ⟨fields, -, h⟩
  cases h

theorem Refuses.exists_resolve (h : s.Refuses names u) : ∃ n, s.resolve n = .error u := by
  obtain ⟨_, n, _, _, _, hn⟩ := mapM_eq_error_iff.1 (refuses_iff.1 h)
  exact ⟨n, hn⟩

theorem exists_mapM_resolve_iff :
    (∃ fs, names.mapM s.resolve = .ok fs) ↔ ∀ n ∈ names, s.names.count n = 1 := by
  rw [← exists_select_iff]
  constructor
  · rintro ⟨fs, h⟩
    exact ⟨⟨fs⟩, select_eq_ok_iff.2 (mapM_eq_ok_iff.1 h)⟩
  · rintro ⟨t, h⟩
    exact ⟨t.fields, mapM_eq_ok_iff.2 (select_eq_ok_iff.1 h)⟩

theorem exists_refuses_iff : (∃ u, s.Refuses names u) ↔ ∃ n ∈ names, s.names.count n ≠ 1 := by
  have hall : (∃ fs, names.mapM s.resolve = .ok fs) ↔ _ := exists_mapM_resolve_iff
  simp only [refuses_iff]
  cases h : names.mapM s.resolve with
  | ok fs =>
    have hcount := hall.1 ⟨fs, h⟩
    simpa using hcount
  | error u =>
    rw [h] at hall
    simpa using hall

theorem not_refuses_nil : ¬ s.Refuses [] u := by
  rintro ⟨-, before, after, hsplit, -⟩
  simp at hsplit

theorem refuses_singleton_iff {name : String} : s.Refuses [name] u ↔ s.resolve name = .error u := by
  rw [refuses_iff, mapM_cons_eq, bind_eq_error_iff]
  refine or_iff_left ?_
  rintro ⟨f, -, h⟩
  cases h

theorem refuses_append_iff : s.Refuses (names ++ more) u ↔
    s.Refuses names u ∨ (∀ n ∈ names, s.names.count n = 1) ∧ s.Refuses more u := by
  rw [refuses_iff, refuses_iff, refuses_iff, mapM_append_eq_error_iff, exists_mapM_resolve_iff]

end Schema

namespace Expr
variable {s : Schema} {e : Expr} {u : UnknownColumn}

private theorem binary_eq_error_iff {x y : Except UnknownColumn Field} {f : Field → Field} :
    (x >>= fun a => y >>= fun _ => pure (f a)) = .error u ↔
      x = .error u ∨ (∃ a, x = .ok a) ∧ y = .error u := by
  cases x with
  | error e => simp [bind, Except.bind]
  | ok a =>
    cases y with
    | error e => simp [bind, Except.bind]
    | ok b => simp [bind, Except.bind, pure, Except.pure]

private theorem unary_eq_error_iff {x : Except UnknownColumn Field} {f : Field → Field} :
    (x >>= fun a => pure (f a)) = .error u ↔ x = .error u := by
  cases x with
  | error e => simp [bind, Except.bind]
  | ok a => simp [bind, Except.bind, pure, Except.pure]

/-- An expression is refused for the first of its columns from the left that does not resolve. -/
theorem field_eq_error_iff : e.field s = .error u ↔ s.Refuses e.columns u := by
  induction e with
  | column name => exact Schema.refuses_singleton_iff.symm
  | text | integer => simp [field, columns, Schema.not_refuses_nil]
  | logic op left right ihl ihr | arith op left right ihl ihr =>
    rw [columns, Schema.refuses_append_iff, ← exists_field_iff, ← ihl, ← ihr]
    exact binary_eq_error_iff
  | aggregation func argument ih =>
    rw [columns, ← ih]
    exact unary_eq_error_iff

def leaves : Expr → List Expr
  | .logic _ left right | .arith _ left right => left.leaves ++ right.leaves
  | .aggregation _ argument => argument.leaves
  | e => [e]

def column? : Expr → Option String
  | .column name => some name
  | _ => none

theorem column?_eq_some_iff {name : String} : e.column? = some name ↔ e = .column name := by
  cases e <;> simp [column?]

theorem columns_eq_leaves (e : Expr) : e.columns = e.leaves.filterMap column? := by
  induction e with
  | column | text | integer => rfl
  | logic op left right ihl ihr | arith op left right ihl ihr =>
    rw [columns, leaves, List.filterMap_append, ihl, ihr]
  | aggregation func argument ih => rw [columns, leaves, ih]

end Expr

namespace Schema
variable {s : Schema} {exprs : List Expr} {u : UnknownColumn}

private theorem mapM_field_eq_error_iff :
    exprs.mapM (Expr.field s) = .error u ↔ s.Refuses (exprs.flatMap Expr.columns) u := by
  induction exprs with
  | nil =>
    refine ⟨fun h => ?_, fun h => absurd h not_refuses_nil⟩
    cases h
  | cons e exprs ih =>
    rw [List.flatMap_cons, refuses_append_iff, ← Expr.field_eq_error_iff, ← Expr.exists_field_iff,
      mapM_cons_eq, bind_eq_error_iff]
    simp only [map_eq_error_iff, exists_and_right, ih]

theorem derive_eq_error_iff :
    s.derive exprs = .error u ↔ s.Refuses (exprs.flatMap Expr.columns) u := by
  rw [← mapM_field_eq_error_iff, derive, bind_eq_error_iff]
  refine or_iff_left ?_
  rintro ⟨fields, -, h⟩
  cases h

theorem exists_derive_iff :
    (∃ d, s.derive exprs = .ok d) ↔ ∀ n ∈ exprs.flatMap Expr.columns, s.names.count n = 1 := by
  constructor
  · rintro ⟨d, hd⟩ n hn
    obtain ⟨e, he, hn⟩ := List.mem_flatMap.1 hn
    obtain ⟨f, -, hf⟩ := exists_field_of_derive hd he
    exact Expr.exists_field_iff.1 ⟨f, hf⟩ n hn
  · intro h
    have hfield : ∀ e ∈ exprs, ∃ f, e.field s = .ok f := fun e he =>
      Expr.exists_field_iff.2 fun n hn => h n (List.mem_flatMap.2 ⟨e, he, hn⟩)
    obtain ⟨fields, hfields⟩ := exists_forall₂ hfield
    exact ⟨⟨fields⟩, derive_eq_ok_iff.2 hfields⟩

end Schema

end QueryPlan
