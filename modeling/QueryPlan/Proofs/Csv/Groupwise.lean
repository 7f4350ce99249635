import QueryPlan.Proofs.Csv.Conversion
import QueryPlan.Proofs.Csv.Grouping
/-!
# Converting a column group by group

The texts of a column are converted in groups, and what one text becomes may depend on its group. A
column is separable when each of its texts becomes a cell by itself; then the size of the groups does
not matter.
-/
namespace QueryPlan.Csv

def convertedCells (read : Except ReadError Stored) : Option (List Cell) :=
  read.toOption.map Prod.snd

@[simp] theorem convertedCells_ok (stored : Stored) : convertedCells (.ok stored) = some stored.2 :=
  rfl

@[simp] theorem convertedCells_storedAs (storage : Storage) (cells : Option (List Cell)) :
    convertedCells (storedAs storage cells) = cells := by
  cases cells <;> rfl

def Grammar.cells? (g : Grammar) (f : Field) (texts : Texts) : Option (List Cell) :=
  convertedCells (g.readColumn f.type f.nullable texts)

def Grammar.cellsBy (g : Grammar) (f : Field) (size : Nat) (texts : Texts) : Option (List Cell) :=
  ((groups size texts).mapM (g.cells? f)).map List.flatten

/-- Each text becomes a cell by itself, whatever stands beside it. -/
def Grammar.Separable (g : Grammar) (f : Field) (texts : Texts) : Prop :=
  ∃ cell : Option String → Option Cell, ∀ group : Texts, group ≠ [] → (∀ t ∈ group, t ∈ texts) →
    g.cells? f group = group.mapM cell

namespace Grammar
variable {g : Grammar} {f : Field} {texts : Texts} {cells : List Cell} {size : Nat}

theorem cells?_eq_some_iff :
    g.cells? f texts = some cells ↔
      ∃ storage, g.readColumn f.type f.nullable texts = .ok (storage, cells) := by
  rw [cells?, convertedCells, Option.map_eq_some_iff]
  constructor
  · rintro ⟨⟨storage, cs⟩, h, rfl⟩
    exact ⟨storage, toOption_eq_some_iff.1 h⟩
  · rintro ⟨storage, h⟩
    exact ⟨_, toOption_eq_some_iff.2 h, rfl⟩

theorem length_of_cells? (h : g.cells? f texts = some cells) : cells.length = texts.length := by
  obtain ⟨storage, hs⟩ := cells?_eq_some_iff.1 h
  exact (readColumn_fits hs).length

theorem cellsBy_eq_some_iff :
    g.cellsBy f size texts = some cells ↔
      ∃ css, List.Forall₂ (fun group cs => g.cells? f group = some cs) (groups size texts) css ∧
        css.flatten = cells := by
  rw [cellsBy, Option.map_eq_some_iff]
  simp only [mapM_eq_some_iff]

theorem length_of_cellsBy (hs : 0 < size) (h : g.cellsBy f size texts = some cells) :
    cells.length = texts.length := by
  obtain ⟨css, hf, rfl⟩ := cellsBy_eq_some_iff.1 h
  have hl : ∀ {gs : List Texts} {css : List (List Cell)},
      List.Forall₂ (fun group cs => g.cells? f group = some cs) gs css →
      css.flatten.length = gs.flatten.length := by
    intro gs css hf
    induction hf with
    | nil => rfl
    | cons hc _ ih => rw [List.flatten_cons, List.flatten_cons, List.length_append,
        List.length_append, ih, length_of_cells? hc]
  rw [hl hf, flatten_groups hs]

end Grammar

private theorem mapM_flatten {α β : Type} (f : α → Option β) (xss : List (List α)) :
    (xss.mapM (List.mapM f)).map List.flatten = xss.flatten.mapM f := by
  induction xss with
  | nil => rfl
  | cons xs xss ih =>
    rw [List.flatten_cons, List.mapM_append, List.mapM_cons, ← ih]
    cases xs.mapM f with
    | none => rfl
    | some ys => cases xss.mapM (List.mapM f) <;> rfl

theorem Grammar.Separable.cellsBy_eq {g : Grammar} {f : Field} {texts : Texts}
    (h : g.Separable f texts) {a b : Nat} (ha : 0 < a) (hb : 0 < b) :
    g.cellsBy f a texts = g.cellsBy f b texts := by
  obtain ⟨cell, hcell⟩ := h
  have hall : ∀ size, 0 < size → g.cellsBy f size texts = texts.mapM cell := by
    intro size hs
    have hg : (groups size texts).mapM (g.cells? f) =
        (groups size texts).mapM (List.mapM cell) := by
      refine mapM_congr_of_mem fun group hm => hcell group (ne_nil_of_mem_groups hs hm) ?_
      intro t ht
      exact mem_of_mem_groups hs hm ht
    rw [Grammar.cellsBy, hg, mapM_flatten, flatten_groups hs]
  rw [hall a ha, hall b hb]

end QueryPlan.Csv
