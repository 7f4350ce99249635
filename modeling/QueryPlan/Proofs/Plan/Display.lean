import QueryPlan.Plan.Display
import QueryPlan.Proofs.Text.Quoted
/-!
# What the display of a scan tells

A scan shows its path as it is and the columns it is asked for as a list of quoted texts, or as the word
for none. Scans of one path are therefore shown alike only when they are asked for the same columns in
the same order.
-/
namespace QueryPlan.Plan
variable {path : String} {bound bound' : Schema} {source source' : CsvSource}
  {columns columns' : List String}

def shownColumns (columns : List String) : String :=
  if columns.isEmpty then "None" else Text.quotedList columns

theorem display_scan (path : String) (bound : Schema) (source : CsvSource) (columns : List String) :
    (scan path bound source columns).display =
      "Scan: " ++ path ++ ", projection=" ++ shownColumns columns :=
  rfl

theorem shownColumns_cons (column : String) (columns : List String) :
    shownColumns (column :: columns) = Text.quotedList (column :: columns) :=
  rfl

theorem quotedList_ne_none (items : List String) : Text.quotedList items ≠ "None" := by
  intro h
  have hchars := congrArg String.toList h
  simp [Text.quotedList] at hchars

theorem shownColumns_inj : shownColumns columns = shownColumns columns' ↔ columns = columns' := by
  constructor
  · intro h
    cases columns with
    | nil =>
      cases columns' with
      | nil => rfl
      | cons column columns' => exact absurd h.symm (quotedList_ne_none _)
    | cons column columns =>
      cases columns' with
      | nil => exact absurd h (quotedList_ne_none _)
      | cons column' columns' => exact Text.quotedList_inj.1 h
  · rintro rfl
    rfl

theorem display_scan_inj :
    (scan path bound source columns).display = (scan path bound' source' columns').display ↔
      columns = columns' := by
  rw [display_scan, display_scan, String.append_right_inj, shownColumns_inj]

theorem display_scan_nil (path : String) (bound : Schema) (source : CsvSource) :
    (scan path bound source []).display = "Scan: " ++ path ++ ", " ++ "projection=None" := by
  apply String.toList_inj.1
  simp [display_scan, shownColumns]

theorem display_scan_cons (path : String) (bound : Schema) (source : CsvSource) (column : String)
    (columns : List String) : (scan path bound source (column :: columns)).display =
      "Scan: " ++ path ++ ", " ++ "projection=[" ++
        Text.commaSeparated ((column :: columns).map Text.quoted) ++ "]" := by
  apply String.toList_inj.1
  simp [display_scan, shownColumns_cons, Text.quotedList]

theorem append_none_ne_append_bracket (s t : String) : s ++ "projection=None" ≠ t ++ "]" := by
  intro h
  have hlast := congrArg (fun u : String => u.toList.getLast?) h
  simp at hlast

theorem ends_in_none_iff :
    (∃ front, (scan path bound source columns).display = front ++ "projection=None") ↔
      columns = [] := by
  constructor
  · rintro ⟨front, h⟩
    cases columns with
    | nil => rfl
    | cons column columns =>
      rw [display_scan_cons] at h
      exact absurd h.symm (append_none_ne_append_bracket _ _)
  · rintro rfl
    exact ⟨_, display_scan_nil path bound source⟩

theorem ends_in_list_iff :
    (∃ front items, (scan path bound source columns).display =
      front ++ "projection=[" ++ items ++ "]") ↔ columns ≠ [] := by
  constructor
  · rintro ⟨front, items, h⟩ rfl
    rw [display_scan_nil] at h
    exact append_none_ne_append_bracket _ _ h
  · intro hne
    obtain ⟨column, columns, rfl⟩ := List.exists_cons_of_ne_nil hne
    exact ⟨_, _, display_scan_cons path bound source column columns⟩

/-- Scans of one path are shown alike exactly when they are asked for the same columns, and what is
shown ends in a list in brackets, and not in the word for none, exactly when there are such columns. -/
theorem scan_display (path : String) (bound bound' : Schema) (source source' : CsvSource)
    (columns columns' : List String) :
    ((scan path bound source columns).display = (scan path bound' source' columns').display ↔
      columns = columns') ∧
    ((∃ front, (scan path bound source columns).display = front ++ "projection=None") ↔
      columns = []) ∧
    ((∃ front items, (scan path bound source columns).display =
      front ++ "projection=[" ++ items ++ "]") ↔ columns ≠ []) :=
  ⟨display_scan_inj, ends_in_none_iff, ends_in_list_iff⟩

end QueryPlan.Plan
