import QueryPlan.Csv.Text
import QueryPlan.Proofs.Csv.PlainReading
import QueryPlan.Proofs.Csv.StrictRecords
/-!
# Quoted texts

Rows are written with every cell in quotes, the quotes inside it doubled, and a line feed after each
row. Such a text is steady, and its rows are found again, by the records of a text and by the rows of a
strict one. The characters of a row lead all of them through it in the same way, up to the line feed.
-/
namespace QueryPlan.Csv

def quotedCell (text : String) : List Char :=
  '"' :: text.toList.flatMap (fun c => if c = '"' then ['"', '"'] else [c]) ++ ['"']

def quotedRow (delimiter : Char) (row : Row) : List Char :=
  [delimiter].intercalate (row.map quotedCell) ++ ['\n']

def quotedText (delimiter : Char) (rows : List Row) : List Char :=
  rows.flatMap (quotedRow delimiter)

/-- A delimiter that can be told from quotes and line ends, and is not the null character. -/
structure Separates (d : Char) : Prop where
  quote : d ≠ '"'
  feed : d ≠ '\n'
  carriage : d ≠ '\r'
  null : d ≠ '\x00'

structure Writable (row : Row) : Prop where
  ne_nil : row ≠ []
  null : ∀ t ∈ row, '\x00' ∉ t.toList

/-- A place in a row: the mode, the current cell and the finished ones, latest first. -/
structure Cursor where
  mode : Mode
  cell : List Char
  cells : Row

namespace Cursor

def start : Cursor :=
  ⟨.cellStart, [], []⟩

def next (delimiter : Char) (p : Cursor) (c : Char) : Cursor :=
  have more := p.mode.advance delimiter p.cell p.cells c
  ⟨p.mode.after delimiter c, more.1, more.2⟩

structure Ends (q : Cursor) (row : Row) : Prop where
  mode : q.mode = .quoteSeen
  row_eq : (cellText q.cell :: q.cells).reverse = row

/-- Characters lead from one place in a row to another when none of them ends the row or is null, and
only a quote or a delimiter follows closed quotes. -/
inductive Leads (d : Char) : Cursor → List Char → Cursor → Prop where
  | here (p : Cursor) : Leads d p [] p
  | on {p q : Cursor} {c : Char} {cs : List Char} (hgo : p.mode.GoesOn c) (hnull : '\x00' ≠ c)
    (hclosed : p.mode = .quoteSeen → c = '"' ∨ c = d) (h : Leads d (p.next d c) cs q) :
    Leads d p (c :: cs) q

namespace Leads
variable {d : Char} {p q r : Cursor} {cs rest : List Char}

theorem append {ds : List Char} (h : Leads d p cs q) (h' : Leads d q ds r) :
    Leads d p (cs ++ ds) r := by
  induction h with
  | here p => exact h'
  | on hgo hnull hclosed _ ih => exact .on hgo hnull hclosed (ih h')

theorem not_mem (h : Leads d p cs q) (hp : '\x00' ∉ p.cell) : '\x00' ∉ q.cell := by
  induction h with
  | here p => exact hp
  | @on p q c cs _ hnull _ _ ih => exact ih (not_mem_advance d p.mode p.cells hnull hp)

theorem records_eq (h : Leads d p cs q) : records d (some p.mode) p.cell p.cells (cs ++ rest) =
    records d (some q.mode) q.cell q.cells rest := by
  induction h with
  | here p => rfl
  | on hgo _ _ _ ih =>
    rw [List.cons_append, records_advance hgo]
    exact ih

theorem strictRows_eq (h : Leads d p cs q) (hd : d ≠ '"') (hm : p.mode ≠ .rowReturn)
    (hp : '\x00' ∉ p.cell) : strictRows d p.mode.strict p.cell p.cells (cs ++ rest) =
      strictRows d q.mode.strict q.cell q.cells rest := by
  induction h with
  | here p => rfl
  | @on p q c cs hgo hnull hclosed _ ih =>
    rw [List.cons_append, strictRows_advance _ _ hd hgo hm hp hclosed]
    exact ih (Mode.after_ne_rowReturn d p.mode c) (not_mem_advance d p.mode p.cells hnull hp)

theorem isSteady (h : Leads d p cs q)
    (hq : ∀ left, Csv.isSteady d (.record false q.mode) left rest = true) (left : Nat) :
    Csv.isSteady d (.record false p.mode) left (cs ++ rest) = true := by
  induction h generalizing left with
  | here p => exact hq left
  | on hgo _ _ _ ih => exact isSteady_of_step (Mode.step_of_goesOn hgo) (ih hq _)

end Leads
end Cursor

section Row
variable {d : Char}
open Cursor

theorem leads_inside {text : List Char} (h : '\x00' ∉ text) (cell : List Char) (cells : Row) :
    Leads d ⟨.quoted, cell, cells⟩ (text.flatMap fun c => if c = '"' then ['"', '"'] else [c])
      ⟨.quoted, text.reverse ++ cell, cells⟩ := by
  induction text generalizing cell with
  | nil => exact .here _
  | cons c text ih =>
    obtain ⟨hnull, hrest⟩ : '\x00' ≠ c ∧ '\x00' ∉ text := by simpa using h
    rw [List.flatMap_cons, List.reverse_cons, List.append_assoc]
    apply Leads.append _ (ih hrest (c :: cell))
    by_cases hc : c = '"'
    · subst hc
      exact .on (.inl rfl) hnull (by simp) (.on (.inr (by decide)) hnull (by simp) (.here _))
    · have hnext : next d ⟨.quoted, cell, cells⟩ c = ⟨.quoted, c :: cell, cells⟩ := by
        simp [next, Mode.after, Mode.advance, hc]
      rw [if_neg hc]
      refine .on (.inl rfl) hnull (by simp) ?_
      rw [hnext]
      exact .here _

theorem leads_quotedCell {text : String} (h : '\x00' ∉ text.toList) (cells : Row) :
    Leads d ⟨.cellStart, [], cells⟩ (quotedCell text)
      ⟨.quoteSeen, text.toList.reverse, cells⟩ := by
  have hinside := leads_inside (d := d) h [] cells
  rw [List.append_nil] at hinside
  refine .on (.inr (by decide)) (by decide) (by simp) (hinside.append ?_)
  exact .on (.inl rfl) (by decide) (by simp) (.here _)

theorem cellText_reverse {text : String} (h : '\x00' ∉ text.toList) :
    cellText text.toList.reverse = text := by
  rw [cellText_eq (by simpa using h), strictCellText, List.reverse_reverse, String.ofList_toList]

theorem exists_leads_cells (hd : Separates d) {row : Row} (hrow : Writable row) (cells : Row) :
    ∃ q, Leads d ⟨.cellStart, [], cells⟩ ([d].intercalate (row.map quotedCell)) q ∧
      q.Ends (cells.reverse ++ row) := by
  obtain ⟨hne, hnull⟩ := hrow
  induction row generalizing cells with
  | nil => exact absurd rfl hne
  | cons text row ih =>
    obtain ⟨htext, hrest⟩ := List.forall_mem_cons.1 hnull
    have hfirst := leads_quotedCell (d := d) htext cells
    cases row with
    | nil =>
      refine ⟨_, by simpa [List.intercalate] using hfirst, rfl, ?_⟩
      rw [cellText_reverse htext, List.reverse_cons]
    | cons other row =>
      have hne : other :: row ≠ [] := List.cons_ne_nil _ _
      obtain ⟨q, hleads, hends⟩ := ih (text :: cells) hne hrest
      have hnext : next d ⟨.quoteSeen, text.toList.reverse, cells⟩ d =
          ⟨.cellStart, [], text :: cells⟩ := by
        simp [next, Mode.after, Mode.advance, hd.quote, cellText_reverse htext]
      refine ⟨q, ?_, by simpa using hends⟩
      rw [List.map_cons, List.map_cons, List.intercalate_cons_cons, List.append_assoc]
      apply hfirst.append
      refine .on (.inr ⟨hd.feed, hd.carriage⟩) hd.null.symm (fun _ => .inr rfl) ?_
      rw [hnext]
      exact hleads

theorem exists_quoted (d : Char) {row : Row} (h : row ≠ []) :
    ∃ cs, [d].intercalate (row.map quotedCell) = '"' :: cs := by
  obtain ⟨text, row, hcons⟩ := List.exists_cons_of_ne_nil h
  subst hcons
  cases row with
  | nil => exact ⟨_, rfl⟩
  | cons other row =>
    rw [List.map_cons, List.map_cons, List.intercalate_cons_cons]
    exact ⟨_, rfl⟩

theorem exists_leads_row (hd : Separates d) {row : Row} (hrow : Writable row) :
    ∃ cs q, quotedRow d row = '"' :: cs ++ ['\n'] ∧ Leads d start ('"' :: cs) q ∧ q.Ends row := by
  obtain ⟨q, hleads, hends⟩ := exists_leads_cells hd hrow []
  obtain ⟨cs, hcs⟩ := exists_quoted d hrow.ne_nil
  rw [hcs] at hleads
  exact ⟨cs, q, by rw [quotedRow, hcs], hleads, hends⟩

end Row

section Text
variable {d : Char} {rows : List Row}
open Cursor

private theorem not_isBlank_quote (d : Char) : ¬ isBlank d '"' = true := by
  simp [isBlank]

theorem textOf_quotedText (g : Grammar) (h : ∀ row ∈ rows, Writable row) :
    g.textOf (quotedText d rows) = quotedText d rows := by
  cases g with
  | strict => rfl
  | lenient =>
    cases rows with
    | nil => rfl
    | cons row rows =>
      obtain ⟨cs, hcs⟩ := exists_quoted d (h row List.mem_cons_self).ne_nil
      rw [Grammar.textOf, quotedText, List.flatMap_cons, quotedRow, hcs, List.cons_append,
        List.cons_append, dropMark, if_neg (by decide)]

theorem records_quotedText (hd : Separates d) (h : ∀ row ∈ rows, Writable row) :
    records d none [] [] (quotedText d rows) = rows.map some := by
  induction rows with
  | nil => rfl
  | cons row rows ih =>
    obtain ⟨hrow, hrest⟩ := List.forall_mem_cons.1 h
    obtain ⟨cs, q, hquoted, hleads, hends⟩ := exists_leads_row hd hrow
    have hq : q.mode ≠ .quoted := by simp [hends.mode]
    rw [quotedText, List.flatMap_cons, ← quotedText, hquoted, List.append_assoc, List.cons_append,
      records_begin [] (by decide) (not_isBlank_quote d), ← List.cons_append]
    calc records d (some start.mode) start.cell start.cells
          ('"' :: cs ++ (['\n'] ++ quotedText d rows))
        = records d (some q.mode) q.cell q.cells ('\n' :: quotedText d rows) := hleads.records_eq
      _ = some row :: records d none [] [] (quotedText d rows) := by
        rw [records_lineEnd q.cells hq (.inl rfl), hends.row_eq]
      _ = (row :: rows).map some := by rw [ih hrest, List.map_cons]

theorem strictRows_quotedText (hd : Separates d) (h : ∀ row ∈ rows, Writable row) :
    strictRows d .rowStart [] [] (quotedText d rows) = rows.map .ok := by
  induction rows with
  | nil => rfl
  | cons row rows ih =>
    obtain ⟨hrow, hrest⟩ := List.forall_mem_cons.1 h
    obtain ⟨cs, q, hquoted, hleads, hends⟩ := exists_leads_row hd hrow
    have hcell : '\x00' ∉ q.cell := hleads.not_mem List.not_mem_nil
    have hmode : q.mode ≠ .rowReturn := by simp [hends.mode]
    have hrowOf := strictRowOf_record q.cells hmode hcell
    rw [quotedText, List.flatMap_cons, ← quotedText, hquoted, List.append_assoc, List.cons_append,
      strictRows_begin _ (.inl rfl) (by decide), ← List.cons_append]
    calc strictRows d start.mode.strict start.cell start.cells
          ('"' :: cs ++ (['\n'] ++ quotedText d rows))
        = strictRows d q.mode.strict q.cell q.cells ('\n' :: quotedText d rows) :=
          hleads.strictRows_eq hd.quote (by decide) List.not_mem_nil
      _ = .ok row :: strictRows d .rowStart [] [] (quotedText d rows) := by
        rw [strictRows, hrowOf, hends.row_eq, hends.mode]
        simp [Mode.strict]
      _ = (row :: rows).map .ok := by rw [ih hrest, List.map_cons]

private theorem isSteady_quote {left : Nat} {cs : List Char} (hd : Separates d)
    (h : isSteady d (.record false .cellStart) left ('"' :: cs) = true) :
    isSteady d (.line true false) left ('"' :: cs) = true := by
  obtain ⟨p, hp, ht⟩ := isSteady_cons h
  apply isSteady_of_step (p := p) _ ht
  rw [← hp]
  simp [Phase.step, isBlank, hd.quote.symm]

theorem isSteady_quotedText (hd : Separates d) (h : ∀ row ∈ rows, Writable row) (left : Nat) :
    isSteady d (.line true false) left (quotedText d rows) = true := by
  induction rows generalizing left with
  | nil => rfl
  | cons row rows ih =>
    obtain ⟨hrow, hrest⟩ := List.forall_mem_cons.1 h
    obtain ⟨cs, q, hquoted, hleads, hends⟩ := exists_leads_row hd hrow
    rw [quotedText, List.flatMap_cons, ← quotedText, hquoted, List.append_assoc, List.cons_append]
    apply isSteady_quote hd
    apply hleads.isSteady
    intro left
    rw [hends.mode]
    exact isSteady_of_step (p := .line true false) rfl (ih hrest _)

end Text

/-- Rows as a strict text can hold them: no cell is too long, and the first one does not start with a
mark. -/
structure FitStrict (rows : List Row) : Prop where
  short : ∀ row ∈ rows, isTooLong row = false
  mark : ∀ row ∈ rows.head?, isMarked row = false

instance (rows : List Row) : Decidable (FitStrict rows) :=
  decidable_of_iff ((∀ row ∈ rows, isTooLong row = false) ∧ ∀ row ∈ rows.head?, isMarked row = false)
    ⟨fun h => ⟨h.1, h.2⟩, fun h => ⟨h.short, h.mark⟩⟩

/-- Whether a row is kept: with a delimiter outside ASCII a row that looks blank is dropped. -/
def keeps (delimiter : Char) (row : Row) : Bool :=
  delimiter.toNat < 128 || !isBlankRow row

section Batches
variable {config : Config} {fields : Nat} {d : Char} {rows : List Row} {width : Nat}

private theorem batchesOf_lenient (hd : Separates d) (hascii : d.toNat < 128)
    (hh : config.hasHeader = false) (h : ∀ row ∈ rows, Writable row)
    (hw : ∀ row ∈ rows, row.length = width) :
    batchesOf config fields d (quotedText d rows) = (groups config.batchSize rows).map .ok := by
  have hs := config.batchSize_pos
  have hsteady : isSteadyText d config.hasHeader (quotedText d rows) = true := by
    rw [hh]
    exact isSteady_quotedText hd h 0
  rw [batchesOf, Grammar.ofDelimiter, if_pos hascii]
  dsimp only
  rw [batchesOfText_eq hs _ hsteady, plainBatches_eq_ok_iff hs]
  refine ⟨rows, ?_, rfl, fun batch hbatch => ?_⟩
  · rw [recordsOf, hh, if_neg (by decide), records_quotedText hd h]
  · have hall : ∀ row ∈ batch, row.length = width :=
      fun row hrow => hw row (mem_of_mem_groups hs hbatch hrow)
    cases batch with
    | nil => rfl
    | cons first batch =>
      apply List.all_eq_true.2
      intro row hrow
      simp [hall row hrow, hall first List.mem_cons_self]

private theorem batchesOf_strict (hd : Separates d) (hascii : 128 ≤ d.toNat)
    (hh : config.hasHeader = false) (h : ∀ row ∈ rows, Writable row) (hfit : FitStrict rows)
    (hw : ∀ row ∈ rows, row.length = width) (hfields : fields ≤ width) :
    ∃ batches : List (List Row),
      batchesOf config fields d (quotedText d rows) = batches.map .ok ∧
      batches.flatten = filled rows ∧ (filled rows = rows → batches = groups config.batchSize rows) := by
  have hs := config.batchSize_pos
  have hlines : strictLines d .rowStart (quotedText d rows) = rows.map .ok :=
    strictLines_eq_map_ok_iff.2 ⟨strictRows_quotedText hd h, hfit.short⟩
  have hmark : Unmarked (strictLines d .rowStart (quotedText d rows)) := by
    rw [hlines]
    intro row hrow
    rw [List.head?_map] at hrow
    obtain ⟨row', hrow', heq⟩ := Option.map_eq_some_iff.1 hrow
    exact Except.ok.inj heq ▸ hfit.mark row' hrow'
  have hbatches : batchesOf config fields d (quotedText d rows) =
      strictBody fields config.batchSize false (rows.map .ok) := by
    rw [batchesOf, Grammar.ofDelimiter, if_neg (Nat.not_lt.2 hascii)]
    dsimp only
    rw [hh, strictBatches_of_unmarked _ _ hmark, hlines]
  obtain ⟨batches, hbody⟩ := exists_strictBody hs hfields hw
  obtain ⟨rows', hrows, hflatten, haside, -⟩ := rows_of_strictBody hs hbody
  obtain rfl := map_ok_injective hrows
  refine ⟨batches, by rw [hbatches, hbody], hflatten, fun hall => ?_⟩
  rw [haside, hall]
  -- no row is blank
  intro before row after hsplit hblank
  have hmem : row ∈ filled rows := by
    rw [hall, hsplit]
    simp
  rw [not_blank_of_mem_filled hmem] at hblank
  cases hblank

/-- The batches of a quoted text hold the rows that are kept, and are the groups of all rows when all
of them are. -/
theorem batchesOf_quotedText (hd : Separates d) (hh : config.hasHeader = false)
    (h : ∀ row ∈ rows, Writable row) (hfit : 128 ≤ d.toNat → FitStrict rows)
    (hw : ∀ row ∈ rows, row.length = width) (hfields : fields ≤ width) :
    ∃ batches : List (List Row), batchesOf config fields d (quotedText d rows) = batches.map .ok ∧
      batches.flatten = rows.filter (keeps d) ∧
      (rows.filter (keeps d) = rows → batches = groups config.batchSize rows) := by
  by_cases hascii : d.toNat < 128
  · have hkeeps : rows.filter (keeps d) = rows := by simp [keeps, hascii]
    refine ⟨_, batchesOf_lenient hd hascii hh h hw, ?_, fun _ => rfl⟩
    rw [hkeeps, flatten_groups config.batchSize_pos]
  · have hstrict : 128 ≤ d.toNat := Nat.not_lt.1 hascii
    have hkeeps : rows.filter (keeps d) = filled rows := by
      have heq : keeps d = (!isBlankRow ·) := by
        funext row
        simp [keeps, hascii]
      rw [heq, filled]
    rw [hkeeps]
    exact batchesOf_strict hd hstrict hh h (hfit hstrict) hw hfields

end Batches

/-- A delimiter and a line feed inside quotes belong to their cell. -/
example : records ';' none [] [] (quotedText ';' [["a;b\n", "\""], ["", " "]]) =
    [some ["a;b\n", "\""], some ["", " "]] := by decide

end QueryPlan.Csv
