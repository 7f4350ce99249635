import Mathlib.Data.List.TakeWhile
import QueryPlan.Proofs.Csv.Standing
import QueryPlan.Proofs.Csv.StrictReading
/-!
# Strict rows and records

Where a strict text is not at fault its rows are its records, but for the blank ones: a line of blanks
is a row with one cell, and no record.
-/
namespace QueryPlan.Csv

def Mode.strict : Mode → StrictMode
  | .cellStart => .cellStart
  | .plain => .plain
  | .quoted => .quoted
  | .quoteSeen => .quoteSeen
  | .rowReturn => .rowReturn

theorem Mode.strict_ne {mode : Mode} (hm : mode ≠ .rowReturn) (hq : mode ≠ .quoted) :
    mode.strict ≠ .quoted ∧ mode.strict ≠ .rowReturn := by
  cases mode <;> simp [Mode.strict] at hm hq ⊢

/-- Where the reader of a strict text and the records of a text stand alike. -/
inductive StrictMode.Matches (d : Char) : StrictMode → List Char → Row → Option Mode → Prop where
  | start : Matches d .rowStart [] [] none
  | lineReturn : Matches d .rowReturn [] [] none
  /-- In a line that has started with some blanks. -/
  | blanks {cell : List Char} (hne : cell ≠ []) (h : ∀ c ∈ cell, isBlank d c = true) :
    Matches d .plain cell [] none
  | record {mode : Mode} (hm : mode ≠ .rowReturn) (cell : List Char) (cells : Row) :
    Matches d mode.strict cell cells (some mode)

section Simulation
variable {d c : Char} {mode : Mode} {cell cs : List Char} {cells : Row}

theorem cellText_eq (h : '\x00' ∉ cell) : cellText cell = strictCellText cell := by
  have hall : cell.reverse.takeWhile (· != '\x00') = cell.reverse := by
    apply List.takeWhile_eq_self_iff.2
    intro a ha
    have hne : a ≠ '\x00' := fun heq => h (heq ▸ List.mem_reverse.1 ha)
    simpa using hne
  rw [cellText, hall, strictCellText]

theorem not_mem_advance {a : Char} (d : Char) (mode : Mode) (cells : Row) (hc : a ≠ c)
    (hcell : a ∉ cell) : a ∉ (mode.advance d cell cells c).1 := by
  have hmore : a ∉ c :: cell := by simpa using ⟨hc, hcell⟩
  unfold Mode.advance
  split
  · split
    · exact hcell
    · exact hmore
  · split
    · exact List.not_mem_nil
    · split
      · exact hmore
      · split
        · exact List.not_mem_nil
        · exact hmore

/-- A strict text goes on in a row as the records do, unless a closing quote does not end its cell. -/
theorem strictRows_advance (cs : List Char) (cells : Row) (hd : d ≠ '"') (h : mode.GoesOn c)
    (hm : mode ≠ .rowReturn) (hcell : '\x00' ∉ cell)
    (hclosed : mode = .quoteSeen → c = '"' ∨ c = d) :
    strictRows d mode.strict cell cells (c :: cs) =
      strictRows d (mode.after d c).strict (mode.advance d cell cells c).1
        (mode.advance d cell cells c).2 cs := by
  rw [strictRows, Mode.after, Mode.advance]
  by_cases hq : mode = .quoted
  · subst hq
    simp only [Mode.strict, if_true]
    split <;> rfl
  · obtain ⟨hn, hr⟩ := h.resolve_left hq
    by_cases hcd : c = d
    · subst hcd
      cases mode <;> simp [Mode.strict, hn, hr, hd, cellText_eq hcell] at hm hq ⊢
    · by_cases hc : c = '"'
      · subst hc
        cases mode <;> simp [Mode.strict, hcd] at hm hq ⊢
      · cases mode <;> simp [Mode.strict, hn, hr, hcd, hc] at hm hq hclosed ⊢

theorem strictRows_advance_or_fault (cs : List Char) (cells : Row) (hd : d ≠ '"')
    (h : mode.GoesOn c) (hm : mode ≠ .rowReturn) (hcell : '\x00' ∉ cell) :
    (∃ row, strictRows d mode.strict cell cells (c :: cs) = [.error ⟨row, .afterQuote d⟩]) ∨
      strictRows d mode.strict cell cells (c :: cs) =
        strictRows d (mode.after d c).strict (mode.advance d cell cells c).1
          (mode.advance d cell cells c).2 cs := by
  by_cases hclosed : mode = .quoteSeen → c = '"' ∨ c = d
  · exact .inr (strictRows_advance cs cells hd h hm hcell hclosed)
  · obtain ⟨hmode, hc⟩ := Classical.not_imp.1 hclosed
    obtain ⟨hquote, hcd⟩ := not_or.1 hc
    subst hmode
    obtain ⟨hn, hr⟩ := h.resolve_left (by decide)
    left
    rw [strictRows]
    simp [Mode.strict, hn, hr, hcd, hquote]

theorem strictRows_line {m : StrictMode} (cs : List Char) (hq : m ≠ .quoted)
    (hr : ¬ (c = '\n' ∧ m = .rowReturn)) (hc : c = '\n' ∨ c = '\r') : ∃ next : StrictMode,
      next.Matches d [] [] none ∧ strictRows d m cell cells (c :: cs) =
        .ok (strictRowOf m cell cells) :: strictRows d next [] [] cs := by
  rw [strictRows, if_neg hq, if_neg hr, if_pos hc]
  refine ⟨_, ?_, rfl⟩
  split
  · exact .start
  · exact .lineReturn

theorem strictRows_lineEnd {m : StrictMode} (hq : m ≠ .quoted)
    (hr : ¬ (c = '\n' ∧ m = .rowReturn)) (hc : c = '\n' ∨ c = '\r') {rows : List Row}
    (h : strictRows d m cell cells (c :: cs) = rows.map .ok) : ∃ next rows',
      next.Matches d [] [] none ∧ rows = strictRowOf m cell cells :: rows' ∧
        strictRows d next [] [] cs = rows'.map .ok := by
  obtain ⟨next, hnext, hline⟩ := strictRows_line cs hq hr hc
  rw [hline] at h
  cases rows with
  | nil => cases h
  | cons row rows =>
    obtain ⟨hrow, hrows⟩ := List.cons.inj h
    exact ⟨next, rows, hnext, by rw [Except.ok.inj hrow], hrows⟩

theorem strictRows_begin {m : StrictMode} (cs : List Char) (hm : m = .rowStart ∨ m = .rowReturn)
    (hc : ¬ (c = '\n' ∨ c = '\r')) :
    strictRows d m [] [] (c :: cs) = strictRows d .cellStart [] [] (c :: cs) := by
  obtain ⟨hn, hr⟩ := not_or.1 hc
  rw [strictRows, strictRows]
  rcases hm with rfl | rfl <;> simp [hn, hr]

theorem isBlank_cases (h : isBlank d c = true) : (c = ' ' ∨ c = '\t') ∧ c ≠ d := by
  simpa [isBlank] using h

/-- A blank belongs to a line, whether it has started or not. -/
theorem strictRows_blank {m : StrictMode} (cell cs : List Char)
    (hm : m = .rowStart ∨ m = .rowReturn ∨ m = .plain) (hb : isBlank d c = true) :
    strictRows d m cell [] (c :: cs) = strictRows d .plain (c :: cell) [] cs := by
  obtain ⟨hc, hd⟩ := isBlank_cases hb
  rw [strictRows]
  rcases hc with rfl | rfl
  · rcases hm with rfl | rfl | rfl <;> simp [hd]
  · rcases hm with rfl | rfl | rfl <;> simp [hd]

theorem isBlankRow_of_blanks (h : ∀ c ∈ cell, isBlank d c = true) :
    isBlankRow (strictRowOf .plain cell []) = true := by
  have hall : cell.reverse.all Text.isBlank = true := by
    rw [List.all_eq_true]
    intro a ha
    rcases (isBlank_cases (h a (List.mem_reverse.1 ha))).1 with rfl | rfl <;> decide
  simpa [strictRowOf, isBlankRow, strictCellText] using hall

end Simulation

def filledRecords (rs : List (Option Row)) : List (Option Row) :=
  rs.filter (·.all (!isBlankRow ·))

theorem filledRecords_cons {row : Row} {rows : List Row} {rs : List (Option Row)}
    (h : filledRecords rs = (filled rows).map some) :
    filledRecords (some row :: rs) = (filled (row :: rows)).map some := by
  cases hb : isBlankRow row with
  | true =>
    rw [filled_cons_of_blank hb, ← h]
    simp [filledRecords, hb]
  | false =>
    rw [filled_cons_of_not_blank hb, List.map_cons, ← h]
    simp [filledRecords, hb]

theorem strictRowOf_record {mode : Mode} {cell : List Char} (cells : Row) (hm : mode ≠ .rowReturn)
    (hcell : '\x00' ∉ cell) :
    strictRowOf mode.strict cell cells = (cellText cell :: cells).reverse := by
  rw [cellText_eq hcell, strictRowOf, if_neg]
  cases mode <;> simp [Mode.strict] at hm ⊢

/-- The rows of a strict text beside its records. A row that is no record is blank. Quotes that are
left open are open in both, and behind a closing quote that does not end its cell there are no rows. -/
inductive RowsFollow (d : Char) : List (Except BrokenRow Row) → List (Option Row) → Prop where
  | nil : RowsFollow d [] []
  | unclosed (cells : Row) : RowsFollow d [.error ⟨cells, .unclosed⟩] [none]
  | afterQuote (cells : Row) (rs : List (Option Row)) :
    RowsFollow d [.error ⟨cells, .afterQuote d⟩] rs
  | record (row : Row) {xs : List (Except BrokenRow Row)} {rs : List (Option Row)}
    (h : RowsFollow d xs rs) : RowsFollow d (.ok row :: xs) (some row :: rs)
  | blank {row : Row} {xs : List (Except BrokenRow Row)} {rs : List (Option Row)}
    (hb : isBlankRow row = true) (h : RowsFollow d xs rs) : RowsFollow d (.ok row :: xs) rs

private def FollowsRecords (d : Char) (cs : List Char) : Prop :=
  ∀ ⦃m : StrictMode⦄ ⦃cell : List Char⦄ ⦃cells : Row⦄ ⦃mode : Option Mode⦄,
    m.Matches d cell cells mode → '\x00' ∉ cell →
      RowsFollow d (strictRows d m cell cells cs) (records d mode cell cells cs)

section Step
variable {d c : Char} {cs cell : List Char} {cells : Row}

private theorem FollowsRecords.nil (d : Char) : FollowsRecords d [] := by
  intro m cell cells mode hm hcell
  cases hm with
  | start | lineReturn => exact .nil
  | blanks hne hb => exact .blank (isBlankRow_of_blanks hb) .nil
  | @record mode hm =>
    have hrow := strictRowOf_record cells hm hcell
    cases mode with
    | rowReturn => exact absurd rfl hm
    | quoted => exact .unclosed _
    | cellStart | plain | quoteSeen =>
      change RowsFollow d [.ok (strictRowOf _ cell cells)] [some (cellText cell :: cells).reverse]
      rw [hrow]
      exact .record _ .nil

private theorem FollowsRecords.record (ih : FollowsRecords d cs) {mode : Mode} (hd : d ≠ '"')
    (hc : '\x00' ≠ c) (hm : mode ≠ .rowReturn) (hcell : '\x00' ∉ cell) :
    RowsFollow d (strictRows d mode.strict cell cells (c :: cs))
      (records d (some mode) cell cells (c :: cs)) := by
  by_cases hgo : mode.GoesOn c
  · rw [records_advance hgo]
    cases strictRows_advance_or_fault cs cells hd hgo hm hcell with
    | inl hfault =>
      obtain ⟨row, hfault⟩ := hfault
      rw [hfault]
      exact .afterQuote row _
    | inr hrows =>
      rw [hrows]
      exact ih (.record (Mode.after_ne_rowReturn d mode c) _ _) (not_mem_advance d mode cells hc hcell)
  · obtain ⟨hq, hline⟩ := Mode.lineEnd_of_not_goesOn hgo
    obtain ⟨hquoted, hreturn⟩ := Mode.strict_ne hm hq
    obtain ⟨next, hnext, hrows⟩ := strictRows_line cs hquoted (fun hr => hreturn hr.2) hline
    rw [records_lineEnd cells hq hline, hrows, strictRowOf_record cells hm hcell]
    exact .record _ (ih hnext (by simp))

private theorem FollowsRecords.blankRow (ih : FollowsRecords d cs) {m : StrictMode}
    (hline : c = '\n' ∨ c = '\r') (hq : m ≠ .quoted) (hr : ¬ (c = '\n' ∧ m = .rowReturn))
    (hb : isBlankRow (strictRowOf m cell []) = true) :
    RowsFollow d (strictRows d m cell [] (c :: cs)) (records d none cell [] (c :: cs)) := by
  obtain ⟨next, hnext, hrows⟩ := strictRows_line cs hq hr hline
  rw [records_line cell hline, hrows]
  exact .blank hb (ih hnext (by simp))

/-- The end of a line that is no record; the line feed after a carriage return gives no row. -/
private theorem FollowsRecords.lineEnd (ih : FollowsRecords d cs) {m : StrictMode}
    (hm : m.Matches d cell cells none) (hline : c = '\n' ∨ c = '\r') :
    RowsFollow d (strictRows d m cell cells (c :: cs)) (records d none cell cells (c :: cs)) := by
  cases hm with
  | start => exact ih.blankRow hline (by decide) (by simp) (by decide)
  | blanks hne hb => exact ih.blankRow hline (by decide) (by simp) (isBlankRow_of_blanks hb)
  | lineReturn =>
    by_cases hn : c = '\n'
    · rw [strictRows, if_neg (by decide), if_pos ⟨hn, rfl⟩, records_line [] hline]
      exact ih .start (by simp)
    · exact ih.blankRow hline (by decide) (fun hr => hn hr.1) (by decide)

private theorem FollowsRecords.blank (ih : FollowsRecords d cs) {m : StrictMode}
    (hm : m.Matches d cell cells none) (hline : ¬ (c = '\n' ∨ c = '\r')) (hb : isBlank d c = true)
    (hcell : '\x00' ∉ c :: cell) :
    RowsFollow d (strictRows d m cell cells (c :: cs)) (records d none cell cells (c :: cs)) := by
  cases hm with
  | start =>
    rw [strictRows_blank [] cs (.inl rfl) hb, records_blank [] hline hb]
    exact ih (.blanks (by simp) (by simpa using hb)) hcell
  | lineReturn =>
    rw [strictRows_blank [] cs (.inr (.inl rfl)) hb, records_blank [] hline hb]
    exact ih (.blanks (by simp) (by simpa using hb)) hcell
  | blanks hne hall =>
    rw [strictRows_blank cell cs (.inr (.inr rfl)) hb, records_blank cell hline hb]
    exact ih (.blanks (by simp) (List.forall_mem_cons.2 ⟨hb, hall⟩)) hcell

/-- A record begins like a cell, or in the middle of one that starts with blanks. -/
private theorem FollowsRecords.begins (ih : FollowsRecords d cs) {m : StrictMode} (hd : d ≠ '"')
    (hm : m.Matches d cell cells none) (hline : ¬ (c = '\n' ∨ c = '\r'))
    (hb : ¬ isBlank d c = true) (hc : '\x00' ≠ c) (hcell : '\x00' ∉ cell) :
    RowsFollow d (strictRows d m cell cells (c :: cs)) (records d none cell cells (c :: cs)) := by
  have hstart : Mode.cellStart ≠ .rowReturn := by decide
  have hplain : Mode.plain ≠ .rowReturn := by decide
  cases hm with
  | start =>
    rw [strictRows_begin cs (.inl rfl) hline, records_begin [] hline hb]
    exact ih.record hd hc hstart hcell
  | lineReturn =>
    rw [strictRows_begin cs (.inr rfl) hline, records_begin [] hline hb]
    exact ih.record hd hc hstart hcell
  | blanks hne hall =>
    rw [records_begin cell hline hb, if_neg (by simpa using hne)]
    exact ih.record hd hc hplain hcell

private theorem FollowsRecords.cons (ih : FollowsRecords d cs) (hd : d ≠ '"') (hc : '\x00' ≠ c) :
    FollowsRecords d (c :: cs) := by
  intro m cell cells mode hm hcell
  cases mode with
  | some mode =>
    cases hm with
    | record hm => exact ih.record hd hc hm hcell
  | none =>
    by_cases hline : c = '\n' ∨ c = '\r'
    · exact ih.lineEnd hm hline
    · by_cases hb : isBlank d c = true
      · exact ih.blank hm hline hb (by simpa using ⟨hc, hcell⟩)
      · exact ih.begins hd hm hline hb hc hcell

end Step

theorem rowsFollow_records {d : Char} {cs cell : List Char} {cells : Row} {m : StrictMode}
    {mode : Option Mode} (hd : d ≠ '"') (hm : m.Matches d cell cells mode) (hcell : '\x00' ∉ cell)
    (hcs : '\x00' ∉ cs) : RowsFollow d (strictRows d m cell cells cs) (records d mode cell cells cs) := by
  have hall : FollowsRecords d cs := by
    induction cs with
    | nil => exact .nil d
    | cons c cs ih =>
      obtain ⟨hc, hnull⟩ : '\x00' ≠ c ∧ '\x00' ∉ cs := by simpa using hcs
      exact (ih hnull).cons hd hc
  exact hall hm hcell

theorem RowsFollow.none_mem {d : Char} {xs : List (Except BrokenRow Row)} {rs : List (Option Row)}
    (h : RowsFollow d xs rs) {cells : Row} (hmem : .error ⟨cells, .unclosed⟩ ∈ xs) :
    none ∈ rs := by
  induction h with
  | nil => cases hmem
  | unclosed => exact .head _
  | afterQuote => simp at hmem
  | record row h ih => exact .tail _ (ih (by simpa using hmem))
  | blank hb h ih => exact ih (by simpa using hmem)

theorem RowsFollow.filledRecords_eq {d : Char} {xs : List (Except BrokenRow Row)}
    {rs : List (Option Row)} (h : RowsFollow d xs rs) {rows : List Row} (hrows : xs = rows.map .ok) :
    filledRecords rs = (filled rows).map some := by
  induction h generalizing rows with
  | nil =>
    rw [List.map_eq_nil_iff.1 hrows.symm]
    rfl
  | unclosed | afterQuote => cases rows <;> cases hrows
  | record row h ih =>
    cases rows with
    | nil => cases hrows
    | cons row' rows =>
      obtain ⟨hrow, hrest⟩ := List.cons.inj hrows
      rw [Except.ok.inj hrow]
      exact filledRecords_cons (ih hrest)
  | blank hb h ih =>
    cases rows with
    | nil => cases hrows
    | cons row' rows =>
      obtain ⟨hrow, hrest⟩ := List.cons.inj hrows
      rw [← Except.ok.inj hrow, filled_cons_of_blank hb]
      exact ih hrest

/-- Where a strict text is not at fault its rows are the records, but for the blank ones. -/
theorem filledRecords_of_strictRows {d : Char} {cs cell : List Char} {cells : Row}
    {rows : List Row} {m : StrictMode} {mode : Option Mode} (hd : d ≠ '"')
    (hm : m.Matches d cell cells mode) (hcell : '\x00' ∉ cell) (hcs : '\x00' ∉ cs)
    (h : strictRows d m cell cells cs = rows.map .ok) :
    filledRecords (records d mode cell cells cs) = (filled rows).map some :=
  (rowsFollow_records hd hm hcell hcs).filledRecords_eq h

theorem strictRows_afterLine {d : Char} {cs cell : List Char} {cells : Row} {rows : List Row}
    (mode : Mode) (hd : d ≠ '"') (hm : mode ≠ .rowReturn) (hcell : '\x00' ∉ cell)
    (hcs : '\x00' ∉ cs) (h : strictRows d mode.strict cell cells cs = rows.map .ok) :
    ∃ next : StrictMode, next.Matches d [] [] none ∧
      strictRows d next [] [] (afterLine d mode cs) = (rows.drop 1).map .ok := by
  induction cs generalizing mode cell cells with
  | nil =>
    refine ⟨.rowStart, .start, ?_⟩
    have hlength : rows.length ≤ 1 := by
      rw [← List.length_map (f := Except.ok (ε := BrokenRow)), ← h]
      cases mode <;> simp [Mode.strict, strictRows]
    rw [List.drop_eq_nil_of_le hlength]
    rfl
  | cons c cs ih =>
    obtain ⟨hc, hnull⟩ : '\x00' ≠ c ∧ '\x00' ∉ cs := by simpa using hcs
    by_cases hgo : mode.GoesOn c
    · rw [afterLine_advance hgo]
      cases strictRows_advance_or_fault cs cells hd hgo hm hcell with
      | inl hfault =>
        obtain ⟨row, hfault⟩ := hfault
        rw [hfault] at h
        cases rows <;> cases h
      | inr hrows =>
        rw [hrows] at h
        exact ih _ (Mode.after_ne_rowReturn d mode c) (not_mem_advance d mode cells hc hcell) hnull h
    · obtain ⟨hq, hline⟩ := Mode.lineEnd_of_not_goesOn hgo
      obtain ⟨hquoted, hreturn⟩ := Mode.strict_ne hm hq
      obtain ⟨next, rows', hnext, hrows, h⟩ :=
        strictRows_lineEnd hquoted (fun hr => hreturn hr.2) hline h
      rw [afterLine, if_neg hq, if_pos hline, hrows]
      exact ⟨next, hnext, h⟩

theorem afterLine_subset (d : Char) (mode : Mode) (cs : List Char) : afterLine d mode cs ⊆ cs := by
  induction cs generalizing mode with
  | nil => exact List.Subset.refl _
  | cons c cs ih =>
    rw [afterLine]
    split
    · exact List.subset_cons_of_subset _ (ih _)
    · split
      · exact List.subset_cons_self _ _
      · split
        · exact List.subset_cons_of_subset _ (ih _)
        · exact List.subset_cons_of_subset _ (ih _)

theorem filledRecords_plainRecords {d : Char} {hasHeader : Bool} {cs : List Char}
    {all : List Row} (hd : d ≠ '"') (hnull : '\x00' ∉ cs)
    (h : strictRows d .rowStart [] [] cs = all.map .ok) :
    filledRecords (plainRecords d hasHeader cs) =
      (filled (all.drop (if hasHeader then 1 else 0))).map some := by
  cases hasHeader with
  | false => exact filledRecords_of_strictRows hd .start (by simp) hnull h
  | true =>
    obtain ⟨next, hnext, hrows⟩ : ∃ next : StrictMode, next.Matches d [] [] none ∧
        strictRows d next [] [] (afterLine d .cellStart cs) = (all.drop 1).map .ok := by
      cases cs with
      | nil => exact ⟨.rowStart, .start, by rw [List.map_eq_nil_iff.1 h.symm]; rfl⟩
      | cons c cs =>
        by_cases hline : c = '\n' ∨ c = '\r'
        · obtain ⟨next, rows, hnext, hall, h⟩ := strictRows_lineEnd (by decide) (by simp) hline h
          rw [afterLine, if_neg (by decide), if_pos hline, hall]
          exact ⟨next, hnext, h⟩
        · rw [strictRows_begin cs (.inl rfl) hline] at h
          exact strictRows_afterLine .cellStart hd (by decide) (by simp) hnull h
    apply filledRecords_of_strictRows hd hnext (by simp) _ hrows
    exact fun hin => hnull (afterLine_subset d .cellStart cs hin)

theorem rows_of_strictBatches {d : Char} {fields size : Nat} {hasHeader : Bool} {cs : List Char}
    {batches : List (List Row)} (hs : 0 < size)
    (hmark : hasHeader = false → Unmarked (strictLines d .rowStart cs))
    (h : strictBatches fields d size hasHeader cs = batches.map .ok) : ∃ rows : List Row,
      strictRowsOf d hasHeader cs = rows.map .ok ∧ batches.flatten = filled rows ∧
      (BlanksAside rows → batches = groups size (filled rows)) ∧
      (d ≠ '"' → '\x00' ∉ cs →
        filledRecords (plainRecords d hasHeader cs) = (filled rows).map some) := by
  obtain ⟨all, hall, hbody⟩ : ∃ all : List Row, strictLines d .rowStart cs = all.map .ok ∧
      strictBody fields size false ((all.drop (if hasHeader then 1 else 0)).map .ok) =
        batches.map .ok := by
    cases hasHeader with
    | false =>
      rw [strictBatches_of_unmarked fields size (hmark rfl)] at h
      obtain ⟨rows, hrows, _⟩ := rows_of_strictBody hs h
      exact ⟨rows, hrows, hrows ▸ h⟩
    | true =>
      unfold strictBatches at h
      dsimp only at h
      rw [if_pos rfl] at h
      split at h
      · next hrows => exact ⟨[], hrows, h⟩
      · cases batches with
        | nil => cases h
        | cons batch batches => cases h
      · next header rows hrows =>
        obtain ⟨others, hothers, _⟩ := rows_of_strictBody hs h
        rw [hothers] at hrows h
        exact ⟨header :: others, hrows, h⟩
  obtain ⟨rows, hrows, hflatten, haside, -⟩ := rows_of_strictBody hs hbody
  have heq : all.drop (if hasHeader then 1 else 0) = rows := map_ok_injective hrows
  subst heq
  refine ⟨_, ?_, hflatten, haside, fun hd hnull => ?_⟩
  · rw [strictRowsOf, hall, List.map_drop]
  · exact filledRecords_plainRecords hd hnull (strictLines_eq_map_ok_iff.1 hall).1

end QueryPlan.Csv
