import QueryPlan.Proofs.Csv.Room
import QueryPlan.Proofs.Csv.StrictRecords
/-!
# Texts behind a header line

A header line without quotes is skipped up to its line feed, whatever its cells and delimiters are.
The rows that follow are those of the text alone; what the header takes away is room in the block. In
a strict text the cells of the header must not be too long, and what follows it is no longer the start,
where a mark is taken off.
-/
namespace QueryPlan.Csv

/-- A line without quotes: it holds no line end either. -/
def IsPlainLine (header : List Char) : Prop :=
  ∀ c ∈ header, c ≠ '"' ∧ c ≠ '\n' ∧ c ≠ '\r'

instance (header : List Char) : Decidable (IsPlainLine header) :=
  List.decidableBAll (fun c => c ≠ '"' ∧ c ≠ '\n' ∧ c ≠ '\r') header

variable {d : Char} {header cs : List Char}

theorem IsPlainLine.tail {c : Char} (h : IsPlainLine (c :: header)) : IsPlainLine header :=
  fun x hx => h x (List.mem_cons_of_mem c hx)

theorem IsPlainLine.textOf (h : IsPlainLine header) (g : Grammar) :
    IsPlainLine (g.textOf header) := by
  cases g with
  | strict => exact h
  | lenient =>
    cases header with
    | nil => exact h
    | cons c header =>
      rw [Grammar.textOf, dropMark]
      split
      · exact h.tail
      · exact h

theorem Mode.after_of_ne_quote {mode : Mode} {c : Char} (hq : mode ≠ .quoted) (hc : c ≠ '"') :
    mode.after d c ≠ .quoted := by
  rw [Mode.after, if_neg hq, if_neg (fun h => hc h.1)]
  split <;> decide

theorem afterLine_header (h : IsPlainLine header) {mode : Mode} (hq : mode ≠ .quoted) :
    afterLine d mode (header ++ '\n' :: cs) = cs := by
  induction header generalizing mode with
  | nil => simp [afterLine, hq]
  | cons c header ih =>
    obtain ⟨hc, hn, hr⟩ := h c List.mem_cons_self
    rw [List.cons_append, afterLine_advance (.inr ⟨hn, hr⟩)]
    exact ih h.tail (Mode.after_of_ne_quote hq hc)

theorem afterHeaderLine_header (h : IsPlainLine header) :
    afterHeaderLine d (header ++ '\n' :: cs) = cs := by
  cases header with
  | nil => simp [afterHeaderLine]
  | cons c header =>
    obtain ⟨hc, hn, -⟩ := h c List.mem_cons_self
    rw [List.cons_append, afterHeaderLine, if_neg hn, if_neg hc]
    exact afterLine_header h.tail (by decide)

theorem skipCells_header (h : IsPlainLine header) (mark : Place) {mode : Mode}
    (hq : mode ≠ .quoted) :
    skipCells d mark mode (header ++ '\n' :: cs).length (header ++ '\n' :: cs) =
      .ofPlace ⟨cs, cs.length⟩ := by
  induction header generalizing mark mode with
  | nil => simp [skipCells, hq, Reader.ofPlace]
  | cons c header ih =>
    obtain ⟨hc, hn, hr⟩ := h c List.mem_cons_self
    obtain ⟨mark', hskip⟩ := skipCells_advance d (header ++ '\n' :: cs) mark
      (c :: (header ++ '\n' :: cs)).length (.inr ⟨hn, hr⟩ : mode.GoesOn c)
    rw [List.cons_append, hskip, Place.of_pos (by simp)]
    exact ih h.tail mark' (Mode.after_of_ne_quote hq hc)

theorem afterHeader_header (h : IsPlainLine header) :
    Reader.afterHeader d ⟨header ++ '\n' :: cs, (header ++ '\n' :: cs).length⟩ =
      .ofPlace ⟨cs, cs.length⟩ := by
  cases header with
  | nil => simp [Reader.afterHeader]
  | cons c header =>
    obtain ⟨hc, hn, -⟩ := h c List.mem_cons_self
    rw [List.cons_append, Reader.afterHeader]
    dsimp only
    rw [if_neg hn, if_neg hc]
    exact skipCells_header h.tail _ (by decide)

/-- A text that is read behind a header begins as it does alone, in a single block. -/
theorem batchesOfText_header {size : Nat} (h : IsPlainLine header)
    (hl : (header ++ '\n' :: cs).length ≤ blockSize) :
    SameUnless ((Reader.ofPlace (Place.blockStart cs)).ReadsAgain d)
      (batchesOfText d size true (header ++ '\n' :: cs)) (batchesOfText d size false cs) := by
  have hbody : cs.length ≤ blockSize := by
    rw [List.length_append, List.length_cons] at hl
    omega
  have hreader : Reader.afterHeader d (Place.blockStart (header ++ '\n' :: cs)) =
      .ofPlace (Place.blockStart cs) := by
    rw [Place.blockStart_of_length_le hl, Place.blockStart_of_length_le hbody, afterHeader_header h]
  rw [batchesOfText_eq_batchesFrom, batchesOfText_eq_batchesFrom, if_pos rfl, hreader,
    if_neg (by decide)]
  exact batchesOfReader_alike d size _ _ _

theorem batchesOfText_header_of_isSteady {size : Nat} (hs : 0 < size) (h : IsPlainLine header)
    (hall : isSteadyText d true (header ++ '\n' :: cs) = true)
    (hbody : isSteadyText d false cs = true) :
    batchesOfText d size true (header ++ '\n' :: cs) = batchesOfText d size false cs := by
  rw [batchesOfText_eq hs true hall, batchesOfText_eq hs false hbody, recordsOf, recordsOf, if_pos rfl,
    if_neg (by decide), afterHeaderLine_header h]

private theorem modifyHead_nil_append (parts : List (List Char)) :
    parts.modifyHead (([] : List Char).reverse ++ ·) = parts := by
  cases parts <;> rfl

theorem strictRows_header (h : IsPlainLine header) (mode : StrictMode) (cell : List Char)
    (cells : Row) (hm : mode = .cellStart ∨ mode = .plain) :
    strictRows d mode cell cells (header ++ '\n' :: cs) =
      .ok (cells.reverse ++
        ((header.splitOn d).modifyHead (cell.reverse ++ ·)).map String.ofList) ::
          strictRows d .rowStart [] [] cs := by
  have hmode : mode ≠ .quoted ∧ mode ≠ .quoteSeen ∧ mode ≠ .rowReturn ∧ mode ≠ .rowStart := by
    rcases hm with rfl | rfl <;> decide
  obtain ⟨hquoted, hseen, hreturn, hstart⟩ := hmode
  induction header generalizing mode cell cells with
  | nil =>
    rw [List.nil_append, strictRows, if_neg hquoted, if_neg (by simp [hreturn]), if_pos (.inl rfl),
      if_pos rfl, strictRowOf, if_neg (by simp [hstart, hreturn])]
    simp [strictCellText]
  | cons c header ih =>
    obtain ⟨hc, hn, hr⟩ := h c List.mem_cons_self
    rw [List.cons_append, strictRows, List.splitOn, List.splitOnP_cons_eq_if_modifyHead]
    simp only [hquoted, hseen, hc, hn, hr, if_false, false_and, or_self, beq_iff_eq]
    split
    · rw [ih h.tail .cellStart _ _ (.inl rfl) (by decide) (by decide) (by decide) (by decide),
        modifyHead_nil_append]
      simp [strictCellText, List.splitOn]
    · rw [ih h.tail .plain _ _ (.inr rfl) (by decide) (by decide) (by decide) (by decide)]
      simp [List.splitOn, Function.comp_def]

def ShortHeader (d : Char) (header : List Char) : Prop :=
  ∀ part ∈ header.splitOn d, part.length ≤ cellLimit

instance (d : Char) (header : List Char) : Decidable (ShortHeader d header) :=
  List.decidableBAll (fun part : List Char => part.length ≤ cellLimit) (header.splitOn d)

theorem strictLines_header (h : IsPlainLine header) (hshort : ShortHeader d header) :
    ∃ row, strictLines d .rowStart (header ++ '\n' :: cs) = .ok row :: strictLines d .rowStart cs := by
  have hrow : ∃ row, strictRows d .rowStart [] [] (header ++ '\n' :: cs) =
      .ok row :: strictRows d .rowStart [] [] cs ∧ isTooLong row = false := by
    cases header with
    | nil => exact ⟨[], by simp [strictRows, strictRowOf], rfl⟩
    | cons c header =>
      obtain ⟨-, hn, hr⟩ := h c List.mem_cons_self
      have hbegin : strictRows d .rowStart [] [] (c :: header ++ '\n' :: cs) =
          strictRows d .cellStart [] [] (c :: header ++ '\n' :: cs) :=
        strictRows_begin _ (.inl rfl) (not_or.2 ⟨hn, hr⟩)
      refine ⟨_, hbegin.trans (strictRows_header h .cellStart [] [] (.inl rfl)), ?_⟩
      rw [isTooLong, List.any_eq_false]
      intro text htext
      rw [modifyHead_nil_append, List.reverse_nil, List.nil_append] at htext
      obtain ⟨part, hmem, rfl⟩ := List.mem_map.1 htext
      simpa using hshort part hmem
  obtain ⟨row, hrows, hlong⟩ := hrow
  refine ⟨row, ?_⟩
  rw [strictLines, hrows, List.map_cons, limited, if_neg (by simp [hlong]), upToFailure, ← strictLines]

/-- A strict text has its rows behind a header as alone, if no mark is taken off. -/
theorem strictBatches_header (fields size : Nat) (h : IsPlainLine header)
    (hshort : ShortHeader d header) (hmark : Unmarked (strictLines d .rowStart cs)) :
    strictBatches fields d size true (header ++ '\n' :: cs) =
      strictBatches fields d size false cs := by
  obtain ⟨row, hrows⟩ := strictLines_header h hshort
  rw [strictBatches_of_unmarked fields size hmark, strictBatches, hrows]
  rfl

end QueryPlan.Csv
