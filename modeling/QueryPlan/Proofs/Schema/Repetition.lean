import Mathlib.Data.List.Nodup
import QueryPlan.Proofs.Schema.Selection
/-!
# Repeated names

The repeated names of a list are those that occur in it at least twice, each once, in order of first
occurrence. They are the names that are ambiguous in a schema: a name that occurs once is resolved,
and one that does not occur is missing.
-/
namespace QueryPlan

/-- The names that occur at least twice among others, each once, in order of first occurrence. -/
structure Repeats (names listed : List String) : Prop where
  mem_iff : ∀ n, n ∈ listed ↔ 2 ≤ names.count n
  nodup : listed.Nodup
  order : listed.Pairwise fun a b => names.idxOf a < names.idxOf b

/-- What is left out of a list does not change which of two names comes first. -/
theorem idxOf_lt_of_filter {names : List String} {p : String → Bool} {a b : String}
    (ha : p a = true) (hb : p b = true)
    (h : (names.filter p).idxOf a < (names.filter p).idxOf b) : names.idxOf a < names.idxOf b := by
  induction names with
  | nil => simp at h
  | cons x xs ih =>
    rw [List.filter_cons] at h
    rw [List.idxOf_cons, List.idxOf_cons]
    split at h
    · rw [List.idxOf_cons, List.idxOf_cons] at h
      grind
    · have hrest := ih h
      grind

theorem pairwise_idxOf_eraseDups (names : List String) :
    names.eraseDups.Pairwise fun a b => names.idxOf a < names.idxOf b := by
  -- erasing the other occurrences of the head shortens the list
  have h : ∀ k, ∀ xs : List String, xs.length ≤ k →
      xs.eraseDups.Pairwise fun a b => xs.idxOf a < xs.idxOf b := by
    intro k
    induction k with
    | zero =>
      intro xs hk
      have hnil : xs = [] := List.length_eq_zero_iff.1 (Nat.le_zero.1 hk)
      subst hnil
      exact .nil
    | succ k ih =>
      intro xs hk
      cases xs with
      | nil => exact .nil
      | cons x xs =>
        have hlength : (xs.filter fun y => !y == x).length ≤ k :=
          Nat.le_trans (List.length_filter_le _ _) (Nat.le_of_succ_le_succ hk)
        have hne : ∀ y ∈ (xs.filter fun y => !y == x).eraseDups, y ≠ x := by
          intro y hy
          simpa using (List.mem_filter.1 (List.mem_eraseDups.1 hy)).2
        rw [List.eraseDups_cons, List.pairwise_cons]
        constructor
        · intro y hy
          rw [List.idxOf_cons_self, List.idxOf_cons_ne _ (hne y hy).symm]
          exact Nat.succ_pos _
        · refine (ih _ hlength).imp_of_mem fun {a b} ha hb hab => ?_
          rw [List.idxOf_cons_ne _ (hne a ha).symm, List.idxOf_cons_ne _ (hne b hb).symm]
          apply Nat.succ_lt_succ
          exact idxOf_lt_of_filter (by simpa using hne a ha) (by simpa using hne b hb) hab
  exact h names.length names (Nat.le_refl _)

theorem nodup_eraseDups (names : List String) : names.eraseDups.Nodup :=
  (pairwise_idxOf_eraseDups names).imp fun hlt heq => absurd hlt (by simp [heq])

namespace Schema

theorem mem_repeatedNames_iff {names : List String} {n : String} :
    n ∈ repeatedNames names ↔ 2 ≤ names.count n := by
  rw [repeatedNames, List.mem_filter, List.mem_eraseDups, decide_eq_true_iff]
  refine ⟨And.right, fun h => ⟨List.count_pos_iff.1 ?_, h⟩⟩
  omega

theorem repeats_repeatedNames (names : List String) : Repeats names (repeatedNames names) := by
  have horder : (repeatedNames names).Pairwise fun a b => names.idxOf a < names.idxOf b :=
    (pairwise_idxOf_eraseDups names).filter _
  refine ⟨fun n => mem_repeatedNames_iff, ?_, horder⟩
  exact horder.imp fun hab heq => absurd hab (by simp [heq])

theorem repeatedNames_eq_nil_iff {names : List String} : repeatedNames names = [] ↔ names.Nodup := by
  rw [List.nodup_iff_count_le_one, List.eq_nil_iff_forall_not_mem]
  refine forall_congr' fun n => ?_
  rw [mem_repeatedNames_iff]
  omega

variable {s : Schema} {name : String}

theorem duplicateNames_eq_nil_iff : s.duplicateNames = [] ↔ s.names.Nodup :=
  repeatedNames_eq_nil_iff

theorem resolve_eq_error_iff {e : UnknownColumn} : s.resolve name = .error e ↔
    s.names.count name ≠ 1 ∧ e = ⟨name, s.names, 2 ≤ s.names.count name⟩ := by
  have hcount := s.count_names name
  unfold resolve
  constructor
  · intro h
    split at h
    · cases h
    · next hf =>
      rw [hf] at hcount
      cases h
      simp [hcount]
    · next hone hnone =>
      have hne : s.names.count name ≠ 1 ∧ 2 ≤ s.names.count name := by
        match hf : s.fields.filter (·.name == name) with
        | [] => exact absurd hf hnone
        | [f] => exact absurd hf (hone f)
        | _ :: _ :: _ =>
          rw [hf] at hcount
          simp [hcount]
      cases h
      simp [hne]
  · rintro ⟨hne, rfl⟩
    split
    · next hf =>
      rw [hf] at hcount
      exact absurd hcount hne
    · next hf =>
      rw [hf] at hcount
      simp [hcount]
    · next hone hnone =>
      have hpos : s.names.count name ≠ 0 := by
        rw [hcount]
        exact fun h => hnone (List.length_eq_zero_iff.1 h)
      have htwo : 2 ≤ s.names.count name := by omega
      simp [htwo]

theorem resolve_ambiguous_iff :
    (∃ u, s.resolve name = .error u ∧ u.ambiguous = true) ↔ 2 ≤ s.names.count name := by
  simp only [resolve_eq_error_iff]
  constructor
  · rintro ⟨u, ⟨-, rfl⟩, h⟩
    exact of_decide_eq_true h
  · intro h
    exact ⟨_, ⟨by omega, rfl⟩, decide_eq_true h⟩

end Schema
end QueryPlan
