import Mathlib.Data.List.Forall2
import QueryPlan.Csv.StrictRow
/-!
# Groups of items

Consecutive groups of a positive size lose no item, and none of them is empty or longer than the size.
What is done to every item can be done inside the groups.
-/
namespace QueryPlan.Csv
variable {α β : Type} {size : Nat}

/-- Induction along the groups: what holds of what is left after the first group holds before it. -/
theorem groups_induction (hs : 0 < size) {P : List α → Prop} (nil : P [])
    (step : ∀ xs, xs ≠ [] → P (xs.drop size) → P xs) (xs : List α) : P xs := by
  have h : ∀ n, ∀ xs : List α, xs.length ≤ n → P xs := by
    intro n
    induction n with
    | zero =>
      intro xs hx
      have hnil : xs = [] := List.length_eq_zero_iff.1 (Nat.le_zero.1 hx)
      rw [hnil]
      exact nil
    | succ n ih =>
      intro xs hx
      by_cases hnil : xs = []
      · rw [hnil]
        exact nil
      · refine step xs hnil (ih _ ?_)
        rw [List.length_drop]
        omega
  exact h xs.length xs (Nat.le_refl _)

theorem flatten_groups (hs : 0 < size) (xs : List α) : (groups size xs).flatten = xs := by
  induction xs using groups_induction hs with
  | nil => rfl
  | step xs hx ih => rw [groups_of_ne_nil hs hx, List.flatten_cons, ih, List.take_append_drop]

theorem ne_nil_of_mem_groups (hs : 0 < size) {xs group : List α} (h : group ∈ groups size xs) :
    group ≠ [] := by
  induction xs using groups_induction hs with
  | nil => simp at h
  | step xs hx ih =>
    rw [groups_of_ne_nil hs hx, List.mem_cons] at h
    rcases h with rfl | h
    · have hpos : 0 < xs.length := List.length_pos_iff.2 hx
      have hl : 0 < (xs.take size).length := by
        rw [List.length_take]
        omega
      exact List.length_pos_iff.1 hl
    · exact ih h

theorem length_le_of_mem_groups (hs : 0 < size) {xs group : List α} (h : group ∈ groups size xs) :
    group.length ≤ size := by
  induction xs using groups_induction hs with
  | nil => simp at h
  | step xs hx ih =>
    rw [groups_of_ne_nil hs hx, List.mem_cons] at h
    rcases h with rfl | h
    · exact List.length_take_le _ _
    · exact ih h

theorem groups_eq_nil_iff (hs : 0 < size) {xs : List α} : groups size xs = [] ↔ xs = [] := by
  constructor
  · intro h
    rw [← flatten_groups hs xs, h, List.flatten_nil]
  · intro h
    rw [h, groups_nil]

theorem length_groups (hs : 0 < size) (xs : List α) :
    (groups size xs).length = (xs.length + size - 1) / size := by
  induction xs using groups_induction hs with
  | nil =>
    have hlt : 0 + size - 1 < size := by omega
    rw [groups_nil, List.length_nil, List.length_nil, Nat.div_eq_of_lt hlt]
  | step xs hx ih =>
    have hpos : 0 < xs.length := List.length_pos_iff.2 hx
    have hall : xs.length + size - 1 = xs.length - 1 + size := by omega
    have hrest : (xs.length - size + size - 1) / size = (xs.length - 1) / size := by
      by_cases hle : size ≤ xs.length
      · rw [Nat.sub_add_cancel hle]
      · rw [Nat.div_eq_of_lt (by omega), Nat.div_eq_of_lt (by omega)]
    rw [groups_of_ne_nil hs hx, List.length_cons, ih, List.length_drop, hrest, hall,
      Nat.add_div_right _ hs]

theorem getElem?_groups (hs : 0 < size) {xs group : List α} {i : Nat}
    (h : (groups size xs)[i]? = some group) : group = (xs.drop (i * size)).take size := by
  induction xs using groups_induction hs generalizing i with
  | nil => cases h
  | step xs hx ih =>
    rw [groups_of_ne_nil hs hx] at h
    cases i with
    | zero =>
      rw [List.getElem?_cons_zero, Option.some.injEq] at h
      rw [Nat.zero_mul, List.drop_zero, h]
    | succ i =>
      rw [List.getElem?_cons_succ] at h
      rw [ih h, List.drop_drop, Nat.succ_mul, Nat.add_comm]

theorem groups_map (hs : 0 < size) (f : α → β) (xs : List α) :
    groups size (xs.map f) = (groups size xs).map (List.map f) := by
  induction xs using groups_induction hs with
  | nil => rfl
  | step xs hx ih =>
    have hm : xs.map f ≠ [] := by simpa using hx
    rw [groups_of_ne_nil hs hx, groups_of_ne_nil hs hm, ← List.map_drop, ih, ← List.map_take,
      List.map_cons]

theorem groups_append (hs : 0 < size) {xs : List α} (h : size ∣ xs.length) (ys : List α) :
    groups size (xs ++ ys) = groups size xs ++ groups size ys := by
  induction xs using groups_induction hs with
  | nil => rfl
  | step xs hx ih =>
    have hle : size ≤ xs.length := Nat.le_of_dvd (List.length_pos_iff.2 hx) h
    have hrest : size ∣ (xs.drop size).length := by
      rw [List.length_drop]
      exact Nat.dvd_sub h (Nat.dvd_refl size)
    rw [groups_of_ne_nil hs (by simp [hx]), groups_of_ne_nil hs hx, List.take_append_of_le_length hle,
      List.drop_append_of_le_length hle, ih hrest, List.cons_append]

theorem mem_of_mem_groups (hs : 0 < size) {xs group : List α} (h : group ∈ groups size xs)
    {x : α} (hx : x ∈ group) : x ∈ xs := by
  rw [← flatten_groups hs xs]
  exact List.mem_flatten.2 ⟨group, h, hx⟩

end QueryPlan.Csv
