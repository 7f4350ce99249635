import Mathlib.Data.List.Forall2
import QueryPlan.Frame
/-!
# Rows of columns

The rows of a frame depend on the cells of its columns alone. Columns of one height are determined
by their rows, and columns that are joined end to end have the rows of the first ones and then those
of the others. The contents of a list of frames are their rows, each with the labels it stands under.
-/
namespace QueryPlan

def rowsOf (height : Nat) (columns : List (List Cell)) : List (List Cell) :=
  columns.foldr (List.zipWith List.cons) (List.replicate height [])

/-- The rows that columns of the same height make, none if there is no column. -/
def tableOf (columns : List (List Cell)) : List (List Cell) :=
  rowsOf (columns.headD []).length columns

def contents (fs : List Frame) : List (List Label × List Cell) :=
  fs.flatMap fun f => f.rows.map fun row => (f.labels, row)

theorem Frame.rows_eq_tableOf (f : Frame) : f.rows = tableOf (f.columns.map (·.cells)) := by
  rw [Frame.rows, tableOf, rowsOf, List.foldr_map, Frame.height]
  cases f.columns with
  | nil => rfl
  | cons c cs => rfl

@[simp] theorem rowsOf_nil (height : Nat) : rowsOf height [] = List.replicate height [] := rfl

@[simp] theorem rowsOf_cons (height : Nat) (c : List Cell) (columns : List (List Cell)) :
    rowsOf height (c :: columns) = List.zipWith List.cons c (rowsOf height columns) := rfl

theorem length_rowsOf {height : Nat} {columns : List (List Cell)}
    (h : ∀ c ∈ columns, c.length = height) : (rowsOf height columns).length = height := by
  induction columns with
  | nil => simp
  | cons c columns ih =>
    have hc := h c List.mem_cons_self
    have hr := ih fun c' hc' => h c' (List.mem_cons_of_mem _ hc')
    rw [rowsOf_cons, List.length_zipWith, hr, hc, Nat.min_self]

theorem tableOf_eq_rowsOf {height : Nat} {columns : List (List Cell)} (hne : columns ≠ [])
    (h : ∀ c ∈ columns, c.length = height) : tableOf columns = rowsOf height columns := by
  obtain ⟨c, columns, rfl⟩ := List.exists_cons_of_ne_nil hne
  rw [tableOf, List.headD_cons, h c List.mem_cons_self]

private theorem forall₂_zipWith_cons {α β : Type} {R : α → β → Cell → Prop} {a : α} {as : List α}
    {xs : List β} {column : List Cell} {rows : List (List Cell)}
    (hfirst : List.Forall₂ (R a) xs column)
    (hrest : List.Forall₂ (fun x row => List.Forall₂ (fun a c => R a x c) as row) xs rows) :
    List.Forall₂ (fun x row => List.Forall₂ (fun a c => R a x c) (a :: as) row) xs
      (List.zipWith List.cons column rows) := by
  induction hfirst generalizing rows with
  | nil => exact .nil
  | cons hcell _ ih =>
    cases hrest with
    | cons hrow hrows => exact .cons (.cons hcell hrow) (ih hrows)

theorem forall₂_rowsOf {α β : Type} {R : α → β → Cell → Prop} {as : List α} {xs : List β}
    {columns : List (List Cell)}
    (h : List.Forall₂ (fun a column => List.Forall₂ (R a) xs column) as columns) :
    List.Forall₂ (fun x row => List.Forall₂ (fun a c => R a x c) as row) xs
      (rowsOf xs.length columns) := by
  induction h with
  | nil =>
    rw [rowsOf_nil, List.forall₂_iff_zip]
    refine ⟨by simp, fun {x row} hm => ?_⟩
    have hrow : row = [] := List.eq_of_mem_replicate (List.of_mem_zip hm).2
    rw [hrow]
    exact .nil
  | cons hfirst _ ih => exact forall₂_zipWith_cons hfirst ih

variable {ι : Type} {a b : Nat} {is : List ι} {f g : ι → List Cell}

private theorem rowsOf_append (hf : ∀ i ∈ is, (f i).length = a) (hg : ∀ i ∈ is, (g i).length = b) :
    rowsOf (a + b) (is.map fun i => f i ++ g i) = rowsOf a (is.map f) ++ rowsOf b (is.map g) := by
  induction is with
  | nil => exact List.replicate_append_replicate.symm
  | cons i is ih =>
    have hfs : ∀ j ∈ is, (f j).length = a := fun j hj => hf j (List.mem_cons_of_mem _ hj)
    have hgs : ∀ j ∈ is, (g j).length = b := fun j hj => hg j (List.mem_cons_of_mem _ hj)
    have hl : (rowsOf a (is.map f)).length = a := length_rowsOf (by simpa using hfs)
    simp only [List.map_cons, rowsOf_cons]
    rw [ih hfs hgs, List.zipWith_append (by rw [hl, hf i List.mem_cons_self])]

theorem tableOf_append (hf : ∀ i ∈ is, (f i).length = a) (hg : ∀ i ∈ is, (g i).length = b) :
    tableOf (is.map fun i => f i ++ g i) = tableOf (is.map f) ++ tableOf (is.map g) := by
  by_cases hne : is = []
  · subst hne
    rfl
  · have hfg : ∀ i ∈ is, (f i ++ g i).length = a + b := by
      intro i hi
      rw [List.length_append, hf i hi, hg i hi]
    rw [tableOf_eq_rowsOf (by simpa using hne) (by simpa using hfg),
      tableOf_eq_rowsOf (by simpa using hne) (by simpa using hf),
      tableOf_eq_rowsOf (by simpa using hne) (by simpa using hg), rowsOf_append hf hg]

private theorem zipWith_cons_inj {c d : List Cell} {rows others : List (List Cell)}
    (hc : c.length = rows.length) (hd : d.length = others.length)
    (h : List.zipWith List.cons c rows = List.zipWith List.cons d others) :
    c = d ∧ rows = others := by
  induction c generalizing d rows others with
  | nil =>
    obtain rfl : rows = [] := List.length_eq_zero_iff.1 hc.symm
    have hz := congrArg List.length h
    rw [List.length_zipWith, List.length_zipWith, hd, Nat.min_self] at hz
    obtain rfl : others = [] := List.length_eq_zero_iff.1 hz.symm
    exact ⟨(List.length_eq_zero_iff.1 hd).symm, rfl⟩
  | cons x c ih =>
    obtain ⟨r, rows, rfl⟩ : ∃ r rs, rows = r :: rs := List.exists_cons_of_length_eq_add_one hc.symm
    cases d with
    | nil => simp at h
    | cons y d =>
      obtain ⟨o, others, rfl⟩ : ∃ o os, others = o :: os :=
        List.exists_cons_of_length_eq_add_one hd.symm
      simp only [List.zipWith_cons_cons, List.cons.injEq] at h
      obtain ⟨⟨rfl, rfl⟩, h⟩ := h
      obtain ⟨rfl, rfl⟩ := ih (by simpa using hc) (by simpa using hd) h
      exact ⟨rfl, rfl⟩

private theorem rowsOf_inj {g : ι → List Cell} (hf : ∀ i ∈ is, (f i).length = a)
    (hg : ∀ i ∈ is, (g i).length = a) (h : rowsOf a (is.map f) = rowsOf a (is.map g)) :
    ∀ i ∈ is, f i = g i := by
  induction is with
  | nil => simp
  | cons i is ih =>
    have hfs : ∀ j ∈ is, (f j).length = a := fun j hj => hf j (List.mem_cons_of_mem _ hj)
    have hgs : ∀ j ∈ is, (g j).length = a := fun j hj => hg j (List.mem_cons_of_mem _ hj)
    have hlf : (rowsOf a (is.map f)).length = a := length_rowsOf (by simpa using hfs)
    have hlg : (rowsOf a (is.map g)).length = a := length_rowsOf (by simpa using hgs)
    rw [List.map_cons, List.map_cons, rowsOf_cons, rowsOf_cons] at h
    obtain ⟨hi, hr⟩ := zipWith_cons_inj (by rw [hlf, hf i List.mem_cons_self])
      (by rw [hlg, hg i List.mem_cons_self]) h
    intro j hj
    rcases List.mem_cons.1 hj with rfl | hj
    · exact hi
    · exact ih hfs hgs hr j hj

theorem tableOf_inj (hf : ∀ i ∈ is, (f i).length = a) (hg : ∀ i ∈ is, (g i).length = a) :
    tableOf (is.map f) = tableOf (is.map g) ↔ ∀ i ∈ is, f i = g i := by
  constructor
  · intro h i hi
    have hne : is ≠ [] := List.ne_nil_of_mem hi
    rw [tableOf_eq_rowsOf (by simpa using hne) (by simpa using hf),
      tableOf_eq_rowsOf (by simpa using hne) (by simpa using hg)] at h
    exact rowsOf_inj hf hg h i hi
  · intro h
    rw [List.map_congr_left h]

end QueryPlan
