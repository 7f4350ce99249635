import QueryPlan.Proofs.Csv.Joining
import QueryPlan.Proofs.Csv.StrictRecords
/-!
# Strict texts one after the other

Behind a strict text that is closed the rows start anew, unless the text is at fault: then nothing
behind it is read. The batches of the text are kept when its blank rows stand aside. But the first two
rows that are not blank are looked for before any batch is made, so a fault behind a text with a
single one of them comes first.
-/
namespace QueryPlan.Csv

section Rows
variable {d c : Char} {cs rest cell : List Char} {cells : Row} {m : StrictMode}

/-- The rows of a text alone and in front of another one, which has some rows behind the end of a
line. -/
inductive StrictJoin {ε : Type} (behind : StrictMode → List (Except ε Row)) :
    List (Except ε Row) → List (Except ε Row) → Prop where
  | fault (rows : List Row) (e : ε) :
    StrictJoin behind (rows.map .ok ++ [.error e]) (rows.map .ok ++ [.error e])
  | anew (rows : List Row) {next : StrictMode} (hnext : next = .rowStart ∨ next = .rowReturn) :
    StrictJoin behind (rows.map .ok) (rows.map .ok ++ behind next)

theorem StrictJoin.cons {ε : Type} {behind : StrictMode → List (Except ε Row)}
    {xs ys : List (Except ε Row)} (row : Row) (h : StrictJoin behind xs ys) :
    StrictJoin behind (.ok row :: xs) (.ok row :: ys) := by
  cases h with
  | fault rows e => exact .fault (row :: rows) e
  | anew rows hnext => exact .anew (row :: rows) hnext

theorem StrictJoin.limited {behind : StrictMode → List (Except BrokenRow Row)}
    {xs ys : List (Except BrokenRow Row)} (h : StrictJoin behind xs ys) :
    StrictJoin (fun next => upToFailure ((behind next).map Csv.limited))
      (upToFailure (xs.map Csv.limited)) (upToFailure (ys.map Csv.limited)) := by
  cases h with
  | fault rows e =>
    rcases upToFailure_cases ((rows.map Except.ok ++ [Except.error e]).map Csv.limited) with
      ⟨as, heq⟩ | ⟨as, e, h⟩
    · have hmem : (Except.error e : Except BrokenRow Row) ∈ as.map Except.ok := by
        rw [← (map_limited_eq_map_ok_iff.1 heq).1]
        simp
      simp at hmem
    · have hnil := h []
      rw [List.append_nil] at hnil
      rw [hnil]
      exact .fault as e
  | @anew rows next hnext =>
    rw [List.map_append]
    rcases upToFailure_cases ((rows.map Except.ok).map Csv.limited) with ⟨as, heq⟩ | ⟨as, e, h⟩
    · rw [heq, upToFailure_append, upToFailure_eq_map_ok_iff.2 rfl]
      exact .anew as hnext
    · have hnil := h []
      rw [List.append_nil] at hnil
      rw [hnil, h]
      exact .fault as e

/-- What the next character of a strict text does, whatever follows it: it is a fault, ends a row,
belongs to the carriage return before it, or leads on. It leads on behind the end of a line only in
quotes. -/
inductive StrictStep (d c : Char) (m : StrictMode) (cell : List Char) (cells : Row) : Prop where
  | fault (row : Row) (h : ∀ cs, strictRows d m cell cells (c :: cs) = [.error ⟨row, .afterQuote d⟩])
  | row (row : Row) {next : StrictMode} (hnext : next = .rowStart ∨ next = .rowReturn)
    (h : ∀ cs, strictRows d m cell cells (c :: cs) = .ok row :: strictRows d next [] [] cs)
  | feed (h : ∀ cs, strictRows d m cell cells (c :: cs) = strictRows d .rowStart [] [] cs)
  | on {next : StrictMode} {cell' : List Char} {cells' : Row}
    (hline : c = '\n' ∨ c = '\r' → next = .quoted)
    (h : ∀ cs, strictRows d m cell cells (c :: cs) = strictRows d next cell' cells' cs)

theorem strictStep (d c : Char) (m : StrictMode) (cell : List Char) (cells : Row) :
    StrictStep d c m cell cells := by
  by_cases hq : m = .quoted
  · by_cases hc : c = '"'
    · exact .on (by simp [hc]) fun cs => by rw [strictRows, if_pos hq, if_pos hc]
    · exact .on (fun _ => rfl) fun cs => by rw [strictRows, if_pos hq, if_neg hc]
  by_cases hreturn : c = '\n' ∧ m = .rowReturn
  · exact .feed fun cs => by rw [strictRows, if_neg hq, if_pos hreturn]
  by_cases hline : c = '\n' ∨ c = '\r'
  · refine .row (strictRowOf m cell cells) ?_ fun cs => by
      rw [strictRows, if_neg hq, if_neg hreturn, if_pos hline]
    split
    · exact .inl rfl
    · exact .inr rfl
  have h := fun cs => show strictRows d m cell cells (c :: cs) = _ by
    rw [strictRows, if_neg hq, if_neg hreturn, if_neg hline]
  by_cases hd : c = d
  · exact .on (absurd · hline) fun cs => by rw [h, if_pos hd]
  by_cases hdouble : c = '"' ∧ m = .quoteSeen
  · exact .on (absurd · hline) fun cs => by rw [h, if_neg hd, if_pos hdouble]
  by_cases hopen : c = '"' ∧ m ≠ .plain
  · exact .on (absurd · hline) fun cs => by rw [h, if_neg hd, if_neg hdouble, if_pos hopen]
  by_cases hseen : m = .quoteSeen
  · exact .fault _ fun cs => by rw [h, if_neg hd, if_neg hdouble, if_neg hopen, if_pos hseen]
  · exact .on (absurd · hline) fun cs => by
      rw [h, if_neg hd, if_neg hdouble, if_neg hopen, if_neg hseen]

theorem strictRows_append (hend : LineEnded cs)
    (hstart : cs = [] → (m = .rowStart ∨ m = .rowReturn) ∧ cell = [] ∧ cells = [])
    (hclosed : ∀ row, .error ⟨row, .unclosed⟩ ∉ strictRows d m cell cells cs) :
    StrictJoin (fun next => strictRows d next [] [] rest) (strictRows d m cell cells cs)
      (strictRows d m cell cells (cs ++ rest)) := by
  induction cs generalizing m cell cells with
  | nil =>
    obtain ⟨hm, rfl, rfl⟩ := hstart rfl
    have hnil : strictRows d m [] [] [] = [] := by
      rcases hm with rfl | rfl <;> rfl
    rw [hnil]
    exact .anew [] hm
  | cons c cs ih =>
    rw [List.cons_append]
    cases strictStep d c m cell cells with
    | fault row h =>
      rw [h, h]
      exact .fault [] _
    | row row hnext h =>
      rw [h] at hclosed ⊢
      rw [h]
      exact (ih hend.tail (fun _ => ⟨hnext, rfl, rfl⟩) fun row hm => hclosed row (.tail _ hm)).cons row
    | feed h =>
      rw [h] at hclosed ⊢
      rw [h]
      exact ih hend.tail (fun _ => ⟨.inl rfl, rfl, rfl⟩) hclosed
    | on hline h =>
      rw [h] at hclosed ⊢
      rw [h]
      refine ih hend.tail (fun hnil => ?_) hclosed
      -- at the end of the text the quotes would be open
      subst hnil
      rw [hline (hend c rfl)] at hclosed
      simp [strictRows] at hclosed

theorem strictRows_ne_nil (hm : m ≠ .rowStart ∧ m ≠ .rowReturn) (cs : List Char) :
    strictRows d m cell cells cs ≠ [] := by
  induction cs generalizing m cell cells with
  | nil => cases m <;> simp [strictRows] at hm ⊢
  | cons c cs ih =>
    rw [strictRows]
    split_ifs <;> simp_all

/-- A text has the same rows behind a closed text, but for the row that a line feed gives it when the
line feed belongs to a carriage return before it. -/
theorem strictRows_of_next {next : StrictMode} (hnext : next = .rowStart ∨ next = .rowReturn)
    (cs : List Char) : strictRows d .rowStart [] [] cs = strictRows d next [] [] cs ∨
      strictRows d .rowStart [] [] cs = .ok [] :: strictRows d next [] [] cs := by
  rcases hnext with rfl | rfl
  · exact .inl rfl
  · cases cs with
    | nil => exact .inl rfl
    | cons c cs =>
      by_cases hn : c = '\n'
      · right
        rw [strictRows, strictRows]
        simp [hn, strictRowOf]
      · left
        rw [strictRows, strictRows]
        simp [hn, strictRowOf]

theorem strictLines_of_next {next : StrictMode} (hnext : next = .rowStart ∨ next = .rowReturn)
    (cs : List Char) : strictLines d .rowStart cs = strictLines d next cs ∨
      strictLines d .rowStart cs = .ok [] :: strictLines d next cs := by
  unfold strictLines
  rcases strictRows_of_next (d := d) hnext cs with heq | heq
  · exact .inl (by rw [heq])
  · exact .inr (by rw [heq]; rfl)

end Rows

section Blanks
variable {rows more : List Row}

theorem blanksAside_of_filled (h : ∀ row ∈ rows, isBlankRow row = false) : BlanksAside rows := by
  intro before row after heq hb
  rw [h row (by simp [heq])] at hb
  cases hb

theorem BlanksAside.left (h : BlanksAside (rows ++ more)) : BlanksAside rows := by
  intro before row after heq hb
  have hsides := h before row (after ++ more) (by simp [heq]) hb
  exact hsides.imp_right fun hall r hr => hall r (List.mem_append_left _ hr)

theorem BlanksAside.right (h : BlanksAside (rows ++ more)) : BlanksAside more := by
  intro before row after heq hb
  have hsides := h (rows ++ before) row after (by simp [heq]) hb
  refine hsides.imp_left fun hlt => ?_
  rw [filled_append, List.length_append] at hlt
  omega

theorem BlanksAside.cons_blank {row : Row} (hb : isBlankRow row = true) (h : BlanksAside rows) :
    BlanksAside (row :: rows) := by
  intro before r after heq hr
  cases before with
  | nil => exact .inl (by simp)
  | cons first before =>
    obtain ⟨hfirst, hrows⟩ := List.cons.inj heq
    rw [← hfirst, filled_cons_of_blank hb]
    exact h before r after hrows hr

theorem exists_first_filled {first : Row} {others : List Row} (h : filled rows = first :: others) :
    ∃ blanks rest, rows = blanks ++ first :: rest ∧ (∀ r ∈ blanks, isBlankRow r = true) ∧
      isBlankRow first = false ∧ filled rest = others := by
  obtain ⟨blanks, rest, hrows, hblanks, hfirst, hrest⟩ := List.filter_eq_cons_iff.1 h
  exact ⟨blanks, rest, hrows, by simpa using hblanks, by simpa using hfirst, hrest⟩

end Blanks

section Leading
variable {rows : List Row} {tail : List (Except RowFault Row)} {first : Row}

theorem splitBlank_blanks (h : ∀ r ∈ rows, isBlankRow r = true) :
    splitBlank (rows.map .ok ++ tail) = splitBlank tail := by
  induction rows with
  | nil => rfl
  | cons row rows ih =>
    obtain ⟨hrow, hrows⟩ := List.forall_mem_cons.1 h
    rw [List.map_cons, List.cons_append, splitBlank, if_pos hrow, ih hrows]

theorem splitBlank_filled (h : isBlankRow first = false) :
    splitBlank (.ok first :: tail) = .ok (some (first, tail)) := by
  rw [splitBlank, if_neg (by simp [h])]

/-- Rows whose blank ones stand aside lead with those that are filled, whatever follows them. If only
one is filled, there must be no fault before the next one. -/
theorem leadingRows_append {others : List Row} (haside : BlanksAside rows)
    (hfilled : filled rows = first :: others)
    (htail : others = [] → ∃ x, splitBlank tail = .ok x) :
    ∃ more, leadingRows (rows.map .ok ++ tail) = .ok (some (first, others.map .ok ++ more)) ∧
      (tail = [] → ∃ blanks : List Row, more = blanks.map .ok ∧ ∀ r ∈ blanks, isBlankRow r = true) := by
  obtain ⟨blanks, rest, hrows, hblanks, hfirst, hrest⟩ := exists_first_filled hfilled
  have hsplit : splitBlank (rows.map .ok ++ tail) = .ok (some (first, rest.map .ok ++ tail)) := by
    rw [hrows, List.map_append, List.append_assoc, splitBlank_blanks hblanks]
    exact splitBlank_filled hfirst
  rw [leadingRows, hsplit]
  cases others with
  | nil =>
    have hskip : splitBlank (rest.map .ok ++ tail) = splitBlank tail :=
      splitBlank_blanks (filled_eq_nil_iff.1 hrest)
    obtain ⟨x, hx⟩ := htail rfl
    cases x with
    | none =>
      refine ⟨[], ?_, fun _ => ⟨[], rfl, by simp⟩⟩
      exact bind_eq_ok_iff.2 ⟨_, rfl, bind_eq_ok_iff.2 ⟨none, hskip.trans hx, rfl⟩⟩
    | some x =>
      refine ⟨.ok x.1 :: x.2, ?_, ?_⟩
      · exact bind_eq_ok_iff.2 ⟨_, rfl, bind_eq_ok_iff.2 ⟨some x, hskip.trans hx, rfl⟩⟩
      · rintro rfl
        cases hx
  | cons second others =>
    obtain ⟨between, last, hbetween, hblank, hsecond, hlast⟩ := exists_first_filled hrest
    -- behind the second filled row nothing but blank rows follows a blank one
    obtain ⟨trailing, htrailing, hall⟩ := exists_filled_append last fun before row after heq hb => by
      have hsides := haside (blanks ++ first :: (between ++ second :: before)) row after
        (by rw [hrows, hbetween, heq]; simp) hb
      apply hsides.resolve_left
      simp only [filled_append, filled_cons_of_not_blank hfirst, filled_cons_of_not_blank hsecond,
        List.length_append, List.length_cons]
      omega
    rw [hlast] at htrailing
    have hnext : splitBlank (rest.map .ok ++ tail) = .ok (some (second, last.map .ok ++ tail)) := by
      rw [hbetween, List.map_append, List.append_assoc, splitBlank_blanks hblank]
      exact splitBlank_filled hsecond
    refine ⟨trailing.map .ok ++ tail, ?_, ?_⟩
    · refine bind_eq_ok_iff.2 ⟨_, rfl, bind_eq_ok_iff.2 ⟨_, hnext, ?_⟩⟩
      rw [htrailing, List.map_append, List.append_assoc]
      rfl
    · rintro rfl
      exact ⟨trailing, List.append_nil _, hall⟩

/-- Without anything behind them, nothing but blank rows follows those that are filled. -/
theorem leadingRows_alone {others : List Row} (haside : BlanksAside rows)
    (hfilled : filled rows = first :: others) : ∃ blanks : List Row,
      leadingRows (rows.map .ok) = .ok (some (first, others.map .ok ++ blanks.map .ok)) ∧
        ∀ r ∈ blanks, isBlankRow r = true := by
  have hnil : splitBlank [] = .ok none := rfl
  obtain ⟨more, hlead, hmore⟩ := leadingRows_append haside hfilled fun _ => ⟨none, hnil⟩
  obtain ⟨blanks, rfl, hall⟩ := hmore rfl
  rw [List.append_nil] at hlead
  exact ⟨blanks, hlead, hall⟩

end Leading

section Batches
variable {fields size width : Nat} {rows : List Row} {tail : List (Except RowFault Row)}

theorem strictBatch?_blanks (h : ∀ r ∈ rows, isBlankRow r = true) :
    strictBatch? width (rows.map .ok) = none := by
  have hm : (rows.map (Except.ok (ε := RowFault))).mapM id = .ok rows := mapM_id_eq_ok_iff.2 rfl
  rw [strictBatch?, hm]
  dsimp only
  rw [← filled, filled_eq_nil_iff.2 h]
  rfl

theorem strictBody_blanks (h : filled rows = []) :
    strictBody fields size false (rows.map .ok) = [] := by
  have hsplit : splitBlank (rows.map .ok ++ []) = .ok none := splitBlank_blanks (filled_eq_nil_iff.1 h)
  rw [List.append_nil] at hsplit
  rw [strictBody, leadingRows, hsplit]
  rfl

/-- The groups of rows that fill them do not depend on what follows, nor does what is wrong when there
are too few columns. -/
theorem isPrefix_strictGroups (hs : 0 < size) {rows : List (Except RowFault Row)} (hne : rows ≠ [])
    (hdvd : size ∣ rows.length) (more : List (Except RowFault Row)) :
    strictGroups fields size width rows <+: strictGroups fields size width (rows ++ more) := by
  unfold strictGroups
  split
  · have hle : size ≤ rows.length := Nat.le_of_dvd (List.length_pos_iff.2 hne) hdvd
    simp [List.take_append_of_le_length hle]
  · rw [groups_append hs hdvd, List.filterMap_append]
    exact List.prefix_append _ _

theorem strictGroups_blanks (hs : 0 < size) {rows : List (Except RowFault Row)} (hne : rows ≠ [])
    (hdvd : size ∣ rows.length) {blanks : List Row} (hblanks : ∀ r ∈ blanks, isBlankRow r = true) :
    strictGroups fields size width (rows ++ blanks.map .ok) = strictGroups fields size width rows := by
  unfold strictGroups
  split
  · have hle : size ≤ rows.length := Nat.le_of_dvd (List.length_pos_iff.2 hne) hdvd
    rw [List.take_append_of_le_length hle]
  · have hlast : (groups size (blanks.map .ok)).filterMap (strictBatch? width) = [] := by
      rw [groups_map hs, List.filterMap_eq_nil_iff]
      intro group hgroup
      obtain ⟨rows, hrows, rfl⟩ := List.mem_map.1 hgroup
      exact strictBatch?_blanks fun r hr => hblanks r (mem_of_mem_groups hs hrows hr)
    rw [groups_append hs hdvd, List.filterMap_append, hlast, List.append_nil]

theorem isPrefix_strictBody (hs : 0 < size) (haside : BlanksAside rows)
    (hdvd : size ∣ (filled rows).length)
    (htail : (filled rows).length = 1 → ∃ x, splitBlank tail = .ok x) :
    strictBody fields size false (rows.map .ok) <+:
      strictBody fields size false (rows.map .ok ++ tail) := by
  cases hf : filled rows with
  | nil =>
    rw [strictBody_blanks hf]
    exact List.nil_prefix
  | cons first others =>
    obtain ⟨more, hlead, -⟩ := leadingRows_append haside hf fun h => htail (by rw [hf, h]; rfl)
    obtain ⟨blanks, halone, hall⟩ := leadingRows_alone haside hf
    rw [hf] at hdvd
    have hfill : size ∣ (Except.ok (ε := RowFault) first :: others.map .ok).length := by
      simpa using hdvd
    rw [strictBody_of_leadingRows fields size hlead, strictBody_of_leadingRows fields size halone,
      ← List.cons_append, ← List.cons_append,
      strictGroups_blanks hs (List.cons_ne_nil _ _) hfill hall]
    exact isPrefix_strictGroups hs (List.cons_ne_nil _ _) hfill more

/-- Rows whose blank ones stand aside, and none of which is wider than the first that is filled, make
the groups of those that are filled, if that one has a cell for every field. -/
theorem strictBody_of_aside (hs : 0 < size) (haside : BlanksAside rows)
    (hfirst : ∀ row ∈ (filled rows).head?, row.length = width)
    (hfields : ∀ row ∈ (filled rows).head?, fields ≤ row.length)
    (hw : ∀ row ∈ filled rows, row.length ≤ width) :
    strictBody fields size false (rows.map .ok) = (groups size (filled rows)).map .ok := by
  cases hf : filled rows with
  | nil =>
    rw [strictBody_blanks hf]
    rfl
  | cons first others =>
    obtain ⟨blanks, hlead, hall⟩ := leadingRows_alone haside hf
    have hwidth : first.length = width := hfirst first (by rw [hf]; rfl)
    have hpos : 0 < first.length :=
      length_pos_of_isBlankRow_eq_false (not_blank_of_mem_filled (hf ▸ List.mem_cons_self))
    have hfits : ∀ group ∈ groups size (filled rows ++ blanks), ∀ row ∈ group,
        row.length ≤ first.length := by
      intro group hgroup row hrow
      rcases List.mem_append.1 (mem_of_mem_groups hs hgroup hrow) with hrow | hrow
      · exact hwidth ▸ hw row hrow
      · exact Nat.le_trans (length_le_of_isBlankRow (hall row hrow)) hpos
    have hnarrow : ¬ first.length < fields := Nat.not_lt.2 (hfields first (by rw [hf]; rfl))
    rw [strictBody_of_leadingRows fields size hlead, strictGroups, if_neg hnarrow,
      ← List.map_append, ← List.map_cons, ← List.cons_append, ← hf, groups_map hs,
      filterMap_strictBatch? hfits,
      filter_filled_groups hs (fun row hrow => not_blank_of_mem_filled hrow) hall]

theorem width_of_strictBody (hs : 0 < size) (haside : BlanksAside rows) {batches : List (List Row)}
    (h : strictBody fields size false (rows.map .ok) = batches.map .ok)
    (hfirst : ∀ row ∈ (filled rows).head?, row.length = width) :
    ∀ row ∈ filled rows, row.length ≤ width := by
  obtain ⟨rows', hrows, hflatten, -⟩ := rows_of_strictBody hs h
  obtain rfl := map_ok_injective hrows
  cases hf : filled rows with
  | nil => simp
  | cons first others =>
    obtain ⟨blanks, hlead, -⟩ := leadingRows_alone haside hf
    obtain ⟨hnone, -⟩ | ⟨first', start, rest, hl, -, -, h⟩ := groups_of_strictBody h
    · cases hlead.symm.trans hnone
    cases hlead.symm.trans hl
    rw [← hfirst first (by rw [hf]; rfl), ← hf, ← hflatten]
    intro row hrow
    obtain ⟨batch, hbatch, hrow⟩ := List.mem_flatten.1 hrow
    have hmem : Except.ok batch ∈ batches.map (Except.ok (ε := ReadError)) := List.mem_map_of_mem hbatch
    rw [← h] at hmem
    obtain ⟨group, -, hgroup⟩ := List.mem_filterMap.1 hmem
    exact (strictBatch?_eq_ok_iff.1 hgroup).2.1 row hrow

end Batches

section Texts
variable {d : Char} {fields size : Nat} {cs : List Char}

theorem length_filled_eq {rows : List Row} (hd : d ≠ '"') (hnull : '\x00' ∉ cs)
    (hfilled : ∀ row, some row ∈ records d none [] [] cs → isBlankRow row = false)
    (hclosed : none ∉ records d none [] [] cs)
    (h : strictLines d .rowStart cs = rows.map .ok) :
    (filled rows).length = (records d none [] [] cs).length := by
  have hall : filledRecords (records d none [] [] cs) = records d none [] [] cs := by
    apply List.filter_eq_self.2
    intro r hr
    cases r with
    | none => exact absurd hr hclosed
    | some row => simp [hfilled row hr]
  rw [← hall, filledRecords_of_strictRows hd .start (by simp) hnull (strictLines_eq_map_ok_iff.1 h).1,
    List.length_map]

theorem strictJoin_of_closed (hd : d ≠ '"') (hnull : '\x00' ∉ cs) (hend : LineEnded cs)
    (hclosed : none ∉ records d none [] [] cs) (rest : List Char) :
    StrictJoin (fun next => strictLines d next rest) (strictLines d .rowStart cs)
      (strictLines d .rowStart (cs ++ rest)) := by
  apply StrictJoin.limited
  apply strictRows_append hend (fun _ => ⟨.inl rfl, rfl, rfl⟩)
  exact fun row hmem => hclosed ((rowsFollow_records hd .start (by simp) hnull).none_mem hmem)

theorem StrictJoin.unmarked {behind : StrictMode → List (Except RowFault Row)}
    {xs ys : List (Except RowFault Row)} (h : StrictJoin behind xs ys) (hne : xs ≠ [])
    (hx : Unmarked xs) : Unmarked ys := by
  cases h with
  | fault rows e => exact hx
  | anew rows hnext =>
    cases rows with
    | nil => exact absurd rfl hne
    | cons row rows => exact hx

theorem strictLines_ne_nil (h : cs ≠ []) : strictLines d .rowStart cs ≠ [] := by
  have hrows : strictRows d .rowStart [] [] cs ≠ [] := by
    cases cs with
    | nil => exact absurd rfl h
    | cons c cs =>
      simp only [strictRows, reduceCtorEq, and_false, if_false]
      split_ifs <;> first | exact List.cons_ne_nil _ _ | exact strictRows_ne_nil (by decide) cs
  rw [strictLines]
  cases hxs : strictRows d .rowStart [] [] cs with
  | nil => exact absurd hxs hrows
  | cons x xs =>
    rw [List.map_cons]
    cases limited x <;> exact List.cons_ne_nil _ _

/-- A closed strict text whose records fill their batches, and whose blank rows stand aside and are no
records, begins with the same batches whatever follows it. If it has a single record, no fault may
come before the next one. -/
theorem isPrefix_strictBatches (hs : 0 < size) (hd : d ≠ '"') (hnull : '\x00' ∉ cs)
    (hend : LineEnded cs) (hclosed : none ∉ records d none [] [] cs)
    (hdvd : size ∣ (records d none [] [] cs).length)
    (hmark : Unmarked (strictLines d .rowStart cs))
    (haside : ∀ rows : List Row, strictLines d .rowStart cs = rows.map .ok → BlanksAside rows)
    (hfilled : ∀ row, some row ∈ records d none [] [] cs → isBlankRow row = false)
    (rest : List Char) (hrest : (records d none [] [] cs).length = 1 →
      ∃ x, splitBlank (strictLines d .rowStart rest) = .ok x) :
    strictBatches fields d size false cs <+: strictBatches fields d size false (cs ++ rest) := by
  by_cases hne : cs = []
  · subst hne
    exact List.nil_prefix
  have hjoin := strictJoin_of_closed hd hnull hend hclosed rest
  have hboth := hjoin.unmarked (strictLines_ne_nil hne) hmark
  rw [strictBatches_of_unmarked fields size hmark, strictBatches_of_unmarked fields size hboth]
  generalize hrows : strictLines d .rowStart cs = xs at hjoin
  generalize strictLines d .rowStart (cs ++ rest) = ys at hjoin
  cases hjoin with
  | fault rows e => exact List.prefix_rfl
  | @anew rows next hnext =>
    have hlength := length_filled_eq hd hnull hfilled hclosed hrows
    refine isPrefix_strictBody hs (haside rows hrows) (hlength ▸ hdvd) fun hone => ?_
    obtain ⟨x, hx⟩ := hrest (hlength ▸ hone)
    rcases strictLines_of_next hnext rest with heq | heq
    · exact ⟨x, heq ▸ hx⟩
    · rw [heq] at hx
      exact ⟨x, hx⟩

/-- The rows behind a closed text are those of what follows it, but for a blank row that comes
first. -/
theorem exists_rows_append (hd : d ≠ '"') (hnull : '\x00' ∉ cs) (hend : LineEnded cs)
    (hclosed : none ∉ records d none [] [] cs) {rest : List Char} {rows rows' : List Row}
    (hrows : strictLines d .rowStart cs = rows.map .ok)
    (hrows' : strictLines d .rowStart rest = rows'.map .ok) : ∃ more : List Row,
      strictLines d .rowStart (cs ++ rest) = (rows ++ more).map .ok ∧
        filled more = filled rows' ∧ (BlanksAside more → BlanksAside rows') := by
  have hjoin := strictJoin_of_closed hd hnull hend hclosed rest
  rw [hrows] at hjoin
  generalize hxs : rows.map Except.ok = xs at hjoin
  generalize strictLines d .rowStart (cs ++ rest) = ys at hjoin
  cases hjoin with
  | fault others e =>
    have hmem : Except.error e ∈ rows.map Except.ok := by simp [hxs]
    simp at hmem
  | anew others hnext =>
    obtain rfl := map_ok_injective hxs
    rcases strictLines_of_next hnext rest with heq | heq
    · exact ⟨rows', by rw [← heq, hrows', List.map_append], rfl, id⟩
    · rw [hrows'] at heq
      cases rows' with
      | nil => cases heq
      | cons row more =>
        obtain ⟨hrow, htail⟩ := List.cons.inj heq
        obtain rfl := Except.ok.inj hrow
        exact ⟨more, by rw [← htail, List.map_append], (filled_cons_of_blank rfl more).symm,
          .cons_blank rfl⟩

theorem unmarked_append (hd : d ≠ '"') (hnull : '\x00' ∉ cs) (hend : LineEnded cs)
    (hclosed : none ∉ records d none [] [] cs) {rest : List Char}
    (h : Unmarked (strictLines d .rowStart cs)) (h' : Unmarked (strictLines d .rowStart rest)) :
    Unmarked (strictLines d .rowStart (cs ++ rest)) := by
  by_cases hne : cs = []
  · rwa [hne, List.nil_append]
  · exact (strictJoin_of_closed hd hnull hend hclosed rest).unmarked (strictLines_ne_nil hne) h

/-- The batches of two strict texts follow each other when neither starts with a mark, the blank rows
of both together stand aside and the first rows of both are equally wide. -/
theorem strictBatches_append (hs : 0 < size) (hd : d ≠ '"') (hnull : '\x00' ∉ cs)
    (hend : LineEnded cs) (hclosed : none ∉ records d none [] [] cs)
    (hdvd : size ∣ (records d none [] [] cs).length)
    (hfilled : ∀ row, some row ∈ records d none [] [] cs → isBlankRow row = false)
    (hmark : Unmarked (strictLines d .rowStart cs)) {rest : List Char}
    (hmark' : Unmarked (strictLines d .rowStart rest)) (haside : ∀ rows : List Row,
      strictLines d .rowStart (cs ++ rest) = rows.map .ok → BlanksAside rows)
    {batches batches' : List (List Row)} {width : Nat}
    (hb : strictBatches fields d size false cs = batches.map .ok)
    (hb' : strictBatches fields d size false rest = batches'.map .ok)
    (hw : ∀ row ∈ batches.flatten.head?, row.length = width)
    (hw' : ∀ row ∈ batches'.flatten.head?, row.length = width) :
    strictBatches fields d size false (cs ++ rest) = (batches ++ batches').map .ok := by
  have hboth := unmarked_append hd hnull hend hclosed hmark hmark'
  rw [strictBatches_of_unmarked fields size hboth]
  rw [strictBatches_of_unmarked fields size hmark] at hb
  rw [strictBatches_of_unmarked fields size hmark'] at hb'
  obtain ⟨rows, hrows, hflatten, hgroups, hfits⟩ := rows_of_strictBody hs hb
  obtain ⟨rows', hrows', hflatten', hgroups', hfits'⟩ := rows_of_strictBody hs hb'
  obtain ⟨more, hmore, hsame, hfirst⟩ := exists_rows_append hd hnull hend hclosed hrows hrows'
  have hsides := haside _ hmore
  rw [hrows] at hb
  rw [hrows'] at hb'
  rw [hflatten] at hw
  rw [hflatten'] at hw'
  have hwidth := width_of_strictBody hs hsides.left hb hw
  have hwidth' := width_of_strictBody hs (hfirst hsides.right) hb' hw'
  have hlength := length_filled_eq hd hnull hfilled hclosed hrows
  have hall : filled (rows ++ more) = filled rows ++ filled rows' := by rw [filled_append, hsame]
  have hfirsts : ∀ row ∈ (filled (rows ++ more)).head?, row.length = width := by
    rw [hall]
    exact forall_head?_append hw hw'
  have hfields : ∀ row ∈ (filled (rows ++ more)).head?, fields ≤ row.length := by
    rw [hall]
    exact forall_head?_append hfits hfits'
  have hwidths : ∀ row ∈ filled (rows ++ more), row.length ≤ width := by
    rw [hall, List.forall_mem_append]
    exact ⟨hwidth, hwidth'⟩
  rw [hmore, strictBody_of_aside hs hsides hfirsts hfields hwidths, hall,
    groups_append hs (hlength ▸ hdvd), hgroups hsides.left, hgroups' (hfirst hsides.right)]

end Texts
end QueryPlan.Csv
