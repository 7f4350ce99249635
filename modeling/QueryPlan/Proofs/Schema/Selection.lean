import Mathlib.Data.List.Nodup
import QueryPlan.Proofs.Traversal
import QueryPlan.Schema.Basic
/-!
# Resolving and selecting names

A name resolves when exactly one field carries it. The names of a schema that satisfy a condition
select the fields that carry them, as long as each of them resolves. A selection resolves the names
that it was asked for once, and to the same fields, so that selecting from a selection is selecting
from the schema.
-/
namespace QueryPlan.Schema

theorem mem_of_resolve {s : Schema} {name : String} {f : Field} (h : s.resolve name = .ok f) :
    f ∈ s.fields := by
  have hf : f ∈ s.fields.filter (·.name == name) := by
    rw [resolve_eq_ok_iff.1 h]
    exact List.mem_singleton_self f
  exact (List.mem_filter.1 hf).1

theorem resolve_of_mem {s : Schema} {f : Field} (hf : f ∈ s.fields)
    (hc : s.names.count f.name = 1) : s.resolve f.name = .ok f := by
  rw [resolve_eq_ok_iff]
  rw [count_names] at hc
  obtain ⟨g, hg⟩ := List.length_eq_one_iff.1 hc
  have hm : f ∈ s.fields.filter (·.name == f.name) := List.mem_filter.2 ⟨hf, by simp⟩
  rw [hg] at hm ⊢
  rw [List.mem_singleton.1 hm]

theorem exists_resolve_iff {s : Schema} {name : String} :
    (∃ f, s.resolve name = .ok f) ↔ s.names.count name = 1 := by
  constructor
  · rintro ⟨f, hf⟩
    rw [count_names, resolve_eq_ok_iff.1 hf]
    rfl
  · intro hc
    have hm : name ∈ s.names := List.count_pos_iff.1 (by omega)
    obtain ⟨f, hf, rfl⟩ := List.mem_map.1 hm
    exact ⟨f, resolve_of_mem hf hc⟩

theorem select_eq_ok_iff {s t : Schema} {names : List String} :
    s.select names = .ok t ↔ List.Forall₂ (fun n f => s.resolve n = .ok f) names t.fields := by
  rw [← mapM_eq_ok_iff, select]
  cases names.mapM s.resolve with
  | error e =>
    constructor
    · intro h
      cases h
    · intro h
      cases h
  | ok fs =>
    constructor
    · intro h
      cases h
      rfl
    · intro h
      cases h
      rfl

theorem exists_select_iff {s : Schema} {names : List String} :
    (∃ t, s.select names = .ok t) ↔ ∀ n ∈ names, s.names.count n = 1 := by
  constructor
  · rintro ⟨t, ht⟩ n hn
    obtain ⟨f, -, hf⟩ := exists_of_mem_left (select_eq_ok_iff.1 ht) hn
    exact exists_resolve_iff.1 ⟨f, hf⟩
  · intro h
    obtain ⟨fs, hfs⟩ := exists_forall₂ fun n hn => exists_resolve_iff.2 (h n hn)
    exact ⟨⟨fs⟩, select_eq_ok_iff.2 hfs⟩

theorem select_filter {s : Schema} {p : String → Bool}
    (hc : ∀ f ∈ s.fields, p f.name = true → s.names.count f.name = 1) :
    s.select (s.names.filter p) = .ok ⟨s.fields.filter fun f => p f.name⟩ := by
  have hn : s.names.filter p = (s.fields.filter fun f => p f.name).map (·.name) := by
    rw [names, List.filter_map]
    rfl
  rw [select_eq_ok_iff, hn, List.forall₂_map_left_iff, List.forall₂_same]
  intro f hf
  obtain ⟨hm, hp⟩ := List.mem_filter.1 hf
  exact resolve_of_mem hm (hc f hm hp)

theorem select_error_of_count {s : Schema} {names : List String} {name : String}
    (hm : name ∈ names) (hc : s.names.count name ≠ 1) : ∃ e, s.select names = .error e := by
  cases hs : s.select names with
  | error e => exact ⟨e, rfl⟩
  | ok t =>
    have h := select_eq_ok_iff.1 hs
    obtain ⟨f, -, hf⟩ := exists_of_mem_left h hm
    exact absurd (exists_resolve_iff.1 ⟨f, hf⟩) hc

variable {s t u : Schema} {xs ys : List String}

/-- A selection resolves the names that it was asked for once, to what they stood for. -/
theorem resolve_selected_eq_ok_iff (h : s.select xs = .ok t) {y : String} {f : Field} :
    t.resolve y = .ok f ↔ xs.count y = 1 ∧ s.resolve y = .ok f := by
  have hcount : (∃ g, t.resolve y = .ok g) ↔ xs.count y = 1 := by
    rw [exists_resolve_iff, names_of_select h]
  have hfound : ∀ g, t.resolve y = .ok g → s.resolve y = .ok g := by
    intro g hg
    obtain ⟨x, -, hx⟩ := exists_of_mem_right (select_eq_ok_iff.1 h) (mem_of_resolve hg)
    have hname : x = y := (name_of_resolve hx).symm.trans (name_of_resolve hg)
    rwa [hname] at hx
  constructor
  · intro hf
    exact ⟨hcount.1 ⟨f, hf⟩, hfound f hf⟩
  · rintro ⟨hc, hf⟩
    obtain ⟨g, hg⟩ := hcount.2 hc
    have hgf : g = f := Except.ok.inj ((hfound g hg).symm.trans hf)
    rwa [hgf] at hg

theorem select_selected_eq_ok_iff (h : s.select xs = .ok t) :
    t.select ys = .ok u ↔ (∀ y ∈ ys, xs.count y = 1) ∧ s.select ys = .ok u := by
  rw [select_eq_ok_iff, select_eq_ok_iff, ← List.forall₂_and_left]
  simp only [resolve_selected_eq_ok_iff h]

theorem exists_select_selected_iff (h : s.select xs = .ok t) :
    (∃ u, t.select ys = .ok u) ↔ ∀ y ∈ ys, xs.count y = 1 := by
  rw [exists_select_iff, names_of_select h]

theorem select_names_eq_ok_iff : s.select s.names = .ok t ↔ s.names.Nodup ∧ t = s := by
  have hall : s.names.Nodup → s.select s.names = .ok s := by
    intro hn
    rw [select_eq_ok_iff, names, List.forall₂_map_left_iff, List.forall₂_same]
    intro f hf
    exact resolve_of_mem hf (List.count_eq_one_of_mem hn (List.mem_map.2 ⟨f, hf, rfl⟩))
  constructor
  · intro h
    have hn : s.names.Nodup := List.nodup_iff_count_eq_one.2 (exists_select_iff.1 ⟨t, h⟩)
    exact ⟨hn, Except.ok.inj (h.symm.trans (hall hn))⟩
  · rintro ⟨hn, rfl⟩
    exact hall hn

end QueryPlan.Schema
