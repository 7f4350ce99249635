import QueryPlan.Proofs.Csv.Gathering
import QueryPlan.Proofs.Csv.Record
/-!
# Strict texts and their records

Where a strict text is not at fault its rows are its records, but for those that are blank. Batches
are made before the blank rows are dropped, so they are the groups of the others only when no blank
row stands among these after the second one. The mark that a text may start with is part of its first
row until then, so a text without a header is in step with its records only without a mark.
-/
namespace QueryPlan.Csv

def filled (rows : List Row) : List Row :=
  rows.filter (!isBlankRow ·)

def strictRowsOf (delimiter : Char) (hasHeader : Bool) (text : List Char) :
    List (Except RowFault Row) :=
  (strictLines delimiter .rowStart text).drop (if hasHeader then 1 else 0)

def Unmarked (rows : List (Except RowFault Row)) : Prop :=
  ∀ row, rows.head? = some (.ok row) → isMarked row = false

/-- A blank row comes before the second row that is not blank, or only blank rows follow it. -/
def BlanksAside (rows : List Row) : Prop :=
  ∀ before row after, rows = before ++ row :: after → isBlankRow row = true →
    (filled before).length < 2 ∨ ∀ r ∈ after, isBlankRow r = true

section Lines
variable {d : Char} {m : StrictMode} {cs : List Char}

theorem limited_eq_ok_iff {x : Except BrokenRow Row} {row : Row} :
    limited x = .ok row ↔ x = .ok row ∧ isTooLong row = false := by
  cases x with
  | error broken => simp [limited]
  | ok cells =>
    rw [limited]
    split
    · next h =>
      simp only [reduceCtorEq, Except.ok.injEq, false_iff, not_and]
      rintro rfl
      simp [h]
    · next h =>
      rw [Except.ok.injEq, Except.ok.injEq]
      constructor
      · rintro rfl
        exact ⟨rfl, by simpa using h⟩
      · exact And.left

theorem map_limited_eq_map_ok_iff {xs : List (Except BrokenRow Row)} {rows : List Row} :
    xs.map limited = rows.map .ok ↔ xs = rows.map .ok ∧ ∀ row ∈ rows, isTooLong row = false := by
  induction xs generalizing rows with
  | nil => cases rows <;> simp
  | cons x xs ih =>
    cases rows with
    | nil => simp
    | cons row rows =>
      simp only [List.map_cons, List.cons.injEq, limited_eq_ok_iff, ih, List.forall_mem_cons]
      exact and_and_and_comm

/-- A strict text is free of faults when its quotes are, and no cell is too long. -/
theorem strictLines_eq_map_ok_iff {rows : List Row} : strictLines d m cs = rows.map .ok ↔
    strictRows d m [] [] cs = rows.map .ok ∧ ∀ row ∈ rows, isTooLong row = false := by
  rw [strictLines, upToFailure_eq_map_ok_iff, map_limited_eq_map_ok_iff]

end Lines

section Marks
variable {rows rest : List (Except RowFault Row)} {first : Row}

theorem unmarkRow_of_not_isMarked {row : Row} (h : isMarked row = false) :
    unmarkRow row = some row := by
  cases row with
  | nil => rfl
  | cons cell cells => rw [unmarkRow, if_neg (by simp [h])]

theorem head?_of_leadingRows (hb : startsBlank rows = false)
    (h : leadingRows rows = .ok (some (first, rest))) : rows.head? = some (.ok first) := by
  unfold leadingRows at h
  obtain ⟨x, hx, h⟩ := bind_eq_ok_iff.1 h
  cases rows with
  | nil =>
    cases hx
    cases h
  | cons y rows =>
    cases y with
    | error e => cases hx
    | ok row =>
      have hrow : isBlankRow row = false := hb
      rw [splitBlank, if_neg (by simp [hrow])] at hx
      cases hx
      obtain ⟨y, -, h⟩ := bind_eq_ok_iff.1 h
      cases y <;> cases h <;> rfl

/-- Without a mark it does not matter where a text starts. -/
theorem strictBody_of_unmarked (fields size : Nat) (h : Unmarked rows) :
    strictBody fields size (!startsBlank rows) rows = strictBody fields size false rows := by
  cases hb : startsBlank rows with
  | true => rfl
  | false =>
    unfold strictBody
    cases hl : leadingRows rows with
    | error e => rfl
    | ok x =>
      cases x with
      | none => rfl
      | some x =>
        have hfirst := unmarkRow_of_not_isMarked (h _ (head?_of_leadingRows hb hl))
        simp [hfirst]

theorem strictBatches_of_unmarked {d : Char} {cs : List Char} (fields size : Nat)
    (h : Unmarked (strictLines d .rowStart cs)) :
    strictBatches fields d size false cs =
      strictBody fields size false (strictLines d .rowStart cs) := by
  rw [strictBatches, if_neg (by decide), strictBody_of_unmarked fields size h]

end Marks

section Batches
variable {size width : Nat} {batches : List (List Row)}

@[simp] theorem filled_nil : filled [] = [] := rfl

@[simp] theorem filled_append (rows more : List Row) :
    filled (rows ++ more) = filled rows ++ filled more :=
  List.filter_append ..

theorem filled_eq_nil_iff {rows : List Row} :
    filled rows = [] ↔ ∀ row ∈ rows, isBlankRow row = true := by
  simp [filled, List.filter_eq_nil_iff]

theorem filled_eq_self {rows : List Row} (h : ∀ row ∈ rows, isBlankRow row = false) :
    filled rows = rows :=
  List.filter_eq_self.2 fun row hrow => by simp [h row hrow]

theorem not_blank_of_mem_filled {rows : List Row} {row : Row} (h : row ∈ filled rows) :
    isBlankRow row = false := by
  obtain ⟨_, hb⟩ := List.mem_filter.1 h
  simpa using hb

theorem strictBatch?_eq_none {group : List (Except RowFault Row)}
    (h : strictBatch? width group = none) :
    ∃ rows : List Row, group = rows.map .ok ∧ filled rows = [] := by
  unfold strictBatch? at h
  split at h
  · cases h
  · next rows hg =>
    dsimp only at h
    split at h
    · next he => exact ⟨rows, mapM_id_eq_ok_iff.1 hg, List.isEmpty_iff.1 he⟩
    · split at h <;> cases h

theorem filled_cons_of_blank {row : Row} (h : isBlankRow row = true) (rows : List Row) :
    filled (row :: rows) = filled rows := by
  rw [filled, List.filter_cons, if_neg (by simp [h])]
  rfl

theorem filled_cons_of_not_blank {row : Row} (h : isBlankRow row = false) (rows : List Row) :
    filled (row :: rows) = row :: filled rows := by
  rw [filled, List.filter_cons, if_pos (by simp [h])]
  rfl

/-- Rows among which nothing but blank rows follows a blank one. -/
theorem exists_filled_append (rows : List Row)
    (h : ∀ before row after, rows = before ++ row :: after → isBlankRow row = true →
      ∀ r ∈ after, isBlankRow r = true) :
    ∃ blanks, rows = filled rows ++ blanks ∧ ∀ r ∈ blanks, isBlankRow r = true := by
  induction rows with
  | nil => exact ⟨[], rfl, by simp⟩
  | cons row rows ih =>
    cases hb : isBlankRow row with
    | true =>
      have hall := h [] row rows rfl hb
      refine ⟨row :: rows, ?_, List.forall_mem_cons.2 ⟨hb, hall⟩⟩
      rw [filled_cons_of_blank hb, filled_eq_nil_iff.2 hall, List.nil_append]
    | false =>
      obtain ⟨blanks, hrows, hblanks⟩ := ih fun before r after heq =>
        h (row :: before) r after (by rw [heq, List.cons_append])
      refine ⟨blanks, ?_, hblanks⟩
      rw [filled_cons_of_not_blank hb, List.cons_append, ← hrows]

/-- Groups that make batches are free of faults, and the batches are what is filled in them. -/
theorem batches_of_strictBatch? {gs : List (List (Except RowFault Row))}
    (h : gs.filterMap (strictBatch? width) = batches.map .ok) : ∃ rowss : List (List Row),
      gs = rowss.map (List.map .ok) ∧ batches = (rowss.map filled).filter (!·.isEmpty) := by
  induction gs generalizing batches with
  | nil =>
    have hb : batches = [] := List.map_eq_nil_iff.1 h.symm
    exact ⟨[], rfl, hb⟩
  | cons g gs ih =>
    cases hg : strictBatch? width g with
    | none =>
      rw [List.filterMap_cons_none hg] at h
      obtain ⟨rowss, hgs, hb⟩ := ih h
      obtain ⟨rows, hrows, hempty⟩ := strictBatch?_eq_none hg
      refine ⟨rows :: rowss, by rw [hgs, hrows, List.map_cons], ?_⟩
      rw [hb, List.map_cons, List.filter_cons, hempty]
      rfl
    | some x =>
      rw [List.filterMap_cons_some hg] at h
      cases batches with
      | nil => cases h
      | cons batch batches =>
        obtain ⟨hx, hrest⟩ := List.cons.inj h
        subst hx
        obtain ⟨rowss, hgs, hb⟩ := ih hrest
        obtain ⟨hne, _, rows, hrows, hfilled⟩ := strictBatch?_eq_ok_iff.1 hg
        have hfilled : filled rows = batch := hfilled
        refine ⟨rows :: rowss, by rw [hgs, mapM_id_eq_ok_iff.1 hrows, List.map_cons], ?_⟩
        rw [hb, List.map_cons, List.filter_cons, hfilled, if_pos (by simpa using hne)]

theorem flatten_filter_filled (rowss : List (List Row)) :
    ((rowss.map filled).filter (!·.isEmpty)).flatten = filled rowss.flatten := by
  induction rowss with
  | nil => rfl
  | cons rows rowss ih =>
    rw [List.map_cons, List.filter_cons, List.flatten_cons, filled_append, ← ih]
    cases hf : filled rows with
    | nil => simp
    | cons row more => simp

theorem filter_filled_groups (hs : 0 < size) {rows blanks : List Row}
    (hr : ∀ row ∈ rows, isBlankRow row = false) (hb : ∀ row ∈ blanks, isBlankRow row = true) :
    ((groups size (rows ++ blanks)).map filled).filter (!·.isEmpty) = groups size rows := by
  induction rows using groups_induction hs generalizing blanks with
  | nil =>
    rw [List.nil_append, groups_nil, List.filter_eq_nil_iff]
    intro batch hbatch
    obtain ⟨group, hgroup, heq⟩ := List.mem_map.1 hbatch
    have hnil : filled group = [] :=
      filled_eq_nil_iff.2 fun row hrow => hb row (mem_of_mem_groups hs hgroup hrow)
    simp [← heq, hnil]
  | step rows hne ih =>
    have htake : filled ((rows ++ blanks).take size) = rows.take size := by
      rw [List.take_append, filled_append, filled_eq_self fun row h => hr row (List.mem_of_mem_take h),
        filled_eq_nil_iff.2 fun row h => hb row (List.mem_of_mem_take h), List.append_nil]
    have hnonempty : rows.take size ≠ [] := by
      rw [Ne, List.take_eq_nil_iff, not_or]
      exact ⟨by omega, hne⟩
    rw [groups_of_ne_nil hs (by simp [hne]), groups_of_ne_nil hs hne, List.map_cons, htake,
      List.filter_cons, if_pos (by simpa using hnonempty), List.drop_append]
    rw [ih (fun row h => hr row (List.mem_of_mem_drop h)) fun row h => hb row (List.mem_of_mem_drop h)]

theorem filterMap_strictBatch? {rowss : List (List Row)}
    (h : ∀ rows ∈ rowss, ∀ row ∈ rows, row.length ≤ width) :
    (rowss.map (List.map .ok)).filterMap (strictBatch? width) =
      ((rowss.map filled).filter (!·.isEmpty)).map .ok := by
  induction rowss with
  | nil => rfl
  | cons rows rowss ih =>
    obtain ⟨hrows, hrest⟩ := List.forall_mem_cons.1 h
    have hm : (rows.map (Except.ok (ε := RowFault))).mapM id = .ok rows := mapM_id_eq_ok_iff.2 rfl
    have hany : (filled rows).any (width < ·.length) = false := by
      rw [List.any_eq_false]
      intro row hrow
      simpa using hrows row (List.mem_of_mem_filter hrow)
    have hbatch : strictBatch? width (rows.map .ok) =
        if (filled rows).isEmpty then none else some (.ok (filled rows)) := by
      rw [strictBatch?, hm]
      dsimp only
      rw [← filled, hany]
      rfl
    rw [List.map_cons, List.map_cons, List.filter_cons]
    cases hf : (filled rows).isEmpty with
    | true =>
      rw [List.filterMap_cons_none (by rw [hbatch, hf, if_pos rfl]), ih hrest]
      rfl
    | false =>
      rw [List.filterMap_cons_some (by rw [hbatch, hf]; rfl), ih hrest]
      rfl

end Batches

section Leading
variable {xs rest : List (Except RowFault Row)} {first : Row}

theorem splitBlank_eq_none (h : splitBlank xs = .ok none) :
    ∃ rows : List Row, xs = rows.map .ok ∧ filled rows = [] := by
  induction xs with
  | nil => exact ⟨[], rfl, rfl⟩
  | cons x xs ih =>
    cases x with
    | error e => cases h
    | ok row =>
      rw [splitBlank] at h
      split at h
      · next hb =>
        obtain ⟨rows, hxs, hf⟩ := ih h
        refine ⟨row :: rows, by rw [hxs, List.map_cons], ?_⟩
        rw [filled, List.filter_cons, if_neg (by simp [hb])]
        exact hf
      · cases h

theorem splitBlank_eq_append (h : splitBlank xs = .ok (some (first, rest))) :
    ∃ blanks : List Row, xs = blanks.map .ok ++ .ok first :: rest ∧ filled blanks = [] := by
  induction xs with
  | nil => cases h
  | cons x xs ih =>
    cases x with
    | error e => cases h
    | ok row =>
      rw [splitBlank] at h
      split at h
      · next hb =>
        obtain ⟨blanks, hxs, hf⟩ := ih h
        refine ⟨row :: blanks, by rw [hxs]; rfl, ?_⟩
        rw [filled, List.filter_cons, if_neg (by simp [hb])]
        exact hf
      · cases h
        exact ⟨[], rfl, rfl⟩

theorem leadingRows_eq_append (h : leadingRows xs = .ok (some (first, rest))) :
    ∃ blanks more : List Row, filled blanks = [] ∧ filled more = [] ∧
      (xs = (blanks ++ first :: more).map .ok ∧ rest = [] ∨
        ∃ second others, isBlankRow second = false ∧ rest = .ok second :: others ∧
          xs = (blanks ++ first :: more).map .ok ++ .ok second :: others) := by
  unfold leadingRows at h
  obtain ⟨x, hx, h⟩ := bind_eq_ok_iff.1 h
  cases x with
  | none => cases h
  | some x =>
    obtain ⟨y, hy, h⟩ := bind_eq_ok_iff.1 h
    obtain ⟨blanks, hxs, hblanks⟩ := splitBlank_eq_append hx
    cases y with
    | none =>
      obtain ⟨more, hrest, hmore⟩ := splitBlank_eq_none hy
      cases h
      exact ⟨blanks, more, hblanks, hmore, .inl ⟨by simp [hxs, hrest], rfl⟩⟩
    | some y =>
      obtain ⟨more, hrest, hmore⟩ := splitBlank_eq_append hy
      cases h
      exact ⟨blanks, more, hblanks, hmore, .inr
        ⟨y.1, y.2, splitBlank_eq_some hy, rfl, by simp [hxs, hrest]⟩⟩

/-- The rows that batches are made of hold all that is filled. When blank rows stand aside, only the
last of them are blank. -/
theorem rows_of_leadingRows {rows : List Row}
    (h : leadingRows xs = .ok (some (first, rows.map .ok))) : ∃ all : List Row,
      xs = all.map .ok ∧ filled all = filled (first :: rows) ∧
      (BlanksAside all → ∃ blanks, first :: rows = filled (first :: rows) ++ blanks ∧
        ∀ r ∈ blanks, isBlankRow r = true) := by
  have hfirst := leadingRows_eq_some h
  obtain ⟨blanks, more, hblanks, hmore, hcases⟩ := leadingRows_eq_append h
  rcases hcases with ⟨hxs, hnil⟩ | ⟨second, rest, hsecond, hcons, hxs⟩
  · obtain rfl := List.map_eq_nil_iff.1 hnil
    refine ⟨_, hxs, ?_, fun _ => ⟨[], ?_, by simp⟩⟩
    · simp [hblanks, filled_cons_of_not_blank hfirst, hmore]
    · simp [filled_cons_of_not_blank hfirst]
  · obtain ⟨others, rfl, rfl⟩ : ∃ others, rows = second :: others ∧ rest = others.map .ok := by
      cases rows with
      | nil => cases hcons
      | cons row others =>
        obtain ⟨hrow, hrest⟩ := List.cons.inj hcons
        exact ⟨others, by rw [Except.ok.inj hrow], hrest.symm⟩
    refine ⟨blanks ++ first :: more ++ second :: others, by rw [hxs]; simp, ?_, fun haside => ?_⟩
    · simp [hblanks, hmore, filled_cons_of_not_blank hfirst, filled_cons_of_not_blank hsecond]
    · -- after the first two rows nothing but blank rows follows a blank one
      obtain ⟨trailing, hothers, htrailing⟩ := exists_filled_append others fun before row after heq hb => by
        have hsides := haside (blanks ++ first :: more ++ second :: before) row after
          (by simp [heq]) hb
        apply hsides.resolve_left
        simp [hblanks, hmore, filled_cons_of_not_blank hfirst, filled_cons_of_not_blank hsecond]
      refine ⟨trailing, ?_, htrailing⟩
      rw [filled_cons_of_not_blank hfirst, filled_cons_of_not_blank hsecond, List.cons_append,
        List.cons_append, ← hothers]

theorem splitBlank_map_ok (rows : List Row) : splitBlank (rows.map .ok) = .ok none ∨
    ∃ row rest, splitBlank (rows.map .ok) = .ok (some (row, rest.map .ok)) ∧
      ∀ r ∈ row :: rest, r ∈ rows := by
  induction rows with
  | nil => exact .inl rfl
  | cons row rows ih =>
    rw [List.map_cons, splitBlank]
    split
    · apply ih.imp_right
      rintro ⟨first, rest, h, hmem⟩
      exact ⟨first, rest, h, fun r hr => List.mem_cons_of_mem _ (hmem r hr)⟩
    · exact .inr ⟨row, rows, rfl, fun r hr => hr⟩

theorem leadingRows_map_ok (rows : List Row) : leadingRows (rows.map .ok) = .ok none ∨
    ∃ first led, leadingRows (rows.map .ok) = .ok (some (first, led.map .ok)) ∧
      ∀ r ∈ first :: led, r ∈ rows := by
  cases splitBlank_map_ok rows with
  | inl h =>
    left
    rw [leadingRows, h]
    rfl
  | inr h =>
    obtain ⟨first, rest, h, hmem⟩ := h
    obtain ⟨hfirst, hrest⟩ := List.forall_mem_cons.1 hmem
    right
    cases splitBlank_map_ok rest with
    | inl h' =>
      refine ⟨first, [], ?_, by simpa using hfirst⟩
      exact bind_eq_ok_iff.2 ⟨_, h, bind_eq_ok_iff.2 ⟨none, h', rfl⟩⟩
    | inr h' =>
      obtain ⟨second, more, h', hmore⟩ := h'
      refine ⟨first, second :: more, ?_, ?_⟩
      · exact bind_eq_ok_iff.2 ⟨_, h, bind_eq_ok_iff.2 ⟨some (second, more.map .ok), h', rfl⟩⟩
      · exact List.forall_mem_cons.2 ⟨hfirst, fun r hr => hrest r (hmore r hr)⟩

end Leading

/-- The batches of a strict body hold its filled rows, and they are the groups of these when blank
rows stand aside. The first of these rows has a cell for every field. -/
theorem rows_of_strictBody {fields size : Nat} (hs : 0 < size) {xs : List (Except RowFault Row)}
    {batches : List (List Row)} (h : strictBody fields size false xs = batches.map .ok) :
    ∃ rows : List Row, xs = rows.map .ok ∧ batches.flatten = filled rows ∧
      (BlanksAside rows → batches = groups size (filled rows)) ∧
      ∀ row ∈ (filled rows).head?, fields ≤ row.length := by
  obtain ⟨hnone, rfl⟩ | ⟨first, start, rest, hl, hstart, hw, h⟩ := groups_of_strictBody h
  · unfold leadingRows at hnone
    obtain ⟨x, hx, hnone⟩ := bind_eq_ok_iff.1 hnone
    cases x with
    | none =>
      obtain ⟨rows, hxs, hf⟩ := splitBlank_eq_none hx
      exact ⟨rows, hxs, by rw [hf]; rfl, fun _ => by rw [hf]; rfl, by simp [hf]⟩
    | some x =>
      obtain ⟨y, _, hnone⟩ := bind_eq_ok_iff.1 hnone
      cases y <;> cases hnone
  · cases hstart
    obtain ⟨rowss, hgroups, hb⟩ := batches_of_strictBatch? h
    have hys : .ok first :: rest = rowss.flatten.map .ok := by
      rw [← flatten_groups hs (.ok first :: rest), hgroups, List.map_flatten]
    obtain ⟨others, hall, hrest⟩ : ∃ others, rowss.flatten = first :: others ∧
        rest = others.map .ok := by
      cases hflat : rowss.flatten with
      | nil =>
        rw [hflat] at hys
        cases hys
      | cons row others =>
        rw [hflat] at hys
        obtain ⟨hrow, hrest⟩ := List.cons.inj hys
        exact ⟨others, by rw [Except.ok.inj hrow], hrest⟩
    subst hrest
    have hrowss : groups size (first :: others) = rowss := by
      apply List.map_injective_iff.2 map_ok_injective
      rw [← groups_map hs, List.map_cons, hgroups]
    obtain ⟨rows, hxs, hfilled, haside⟩ := rows_of_leadingRows hl
    refine ⟨rows, hxs, by rw [hb, flatten_filter_filled, hfilled, hall], fun h => ?_, ?_⟩
    · obtain ⟨blanks, happend, hblanks⟩ := haside h
      rw [hb, ← hrowss, happend, hfilled]
      exact filter_filled_groups hs (fun row hrow => not_blank_of_mem_filled hrow) hblanks
    · rw [hfilled, filled_cons_of_not_blank (leadingRows_eq_some hl)]
      simpa using hw

theorem strictBody_of_leadingRows (fields size : Nat) {xs rest : List (Except RowFault Row)}
    {first : Row} (h : leadingRows xs = .ok (some (first, rest))) :
    strictBody fields size false xs = strictGroups fields size first.length (.ok first :: rest) := by
  rw [strictBody, h]
  rfl

theorem exists_strictBody {fields size width : Nat} (hs : 0 < size) (hfields : fields ≤ width)
    {rows : List Row} (hw : ∀ row ∈ rows, row.length = width) : ∃ batches : List (List Row),
      strictBody fields size false (rows.map .ok) = batches.map .ok := by
  cases leadingRows_map_ok rows with
  | inl h => exact ⟨[], by rw [strictBody, h]; rfl⟩
  | inr h =>
    obtain ⟨first, led, h, hmem⟩ := h
    have hlength : first.length = width := hw first (hmem first List.mem_cons_self)
    refine ⟨((groups size (first :: led)).map filled).filter (!·.isEmpty), ?_⟩
    rw [strictBody_of_leadingRows fields size h, strictGroups, if_neg (by omega), ← List.map_cons,
      groups_map hs]
    apply filterMap_strictBatch?
    intro group hgroup row hrow
    have hmem := hmem row (mem_of_mem_groups hs hgroup hrow)
    exact Nat.le_of_eq ((hw row hmem).trans hlength.symm)

end QueryPlan.Csv
