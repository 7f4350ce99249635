import QueryPlan.Csv.Scan
import QueryPlan.Proofs.Csv.Grouping
import QueryPlan.Proofs.Csv.Record
/-!
# The shape of a batch

Whatever the text, no batch is empty or longer than the batch size. No row of a batch is without
cells, or wider than the first one of its batch and the first one of the file. A batch that cannot be
made out is malformed, or a strict text has a row at fault or too few columns.
-/
namespace QueryPlan.Csv

theorem isEven_append {rows more : List Row} (hr : rows ≠ []) :
    isEven (rows ++ more) = (isEven rows && more.all fun row =>
      decide (row.length ≤ (rows.headD []).length)) := by
  obtain ⟨first, rest, rfl⟩ := List.exists_cons_of_ne_nil hr
  simp [isEven]

theorem isEven_append_of_not {rows more : List Row} (h : isEven rows = false) :
    isEven (rows ++ more) = false := by
  have hr : rows ≠ [] := by
    rintro rfl
    cases h
  rw [isEven_append hr, h, Bool.false_and]

theorem length_le_of_isEven {rows : List Row} (h : isEven rows = true) :
    ∀ row ∈ rows, row.length ≤ (rows.headD []).length := by
  intro row hrow
  exact of_decide_eq_true (List.all_eq_true.1 h row hrow)

theorem ite_malformed_eq_ok_iff {α : Type} {p : Prop} [Decidable p] {x : Except ReadError α} {a : α} :
    (if p then malformed else x) = .ok a ↔ ¬ p ∧ x = .ok a := by
  by_cases hp : p <;> simp [hp, malformed]

namespace Batch

/-- A batch with some rows, none of which is wider than the first. -/
structure Holds (b : Batch) (rows : List Row) : Prop where
  rows_eq : b.rows = rows.reverse
  height_eq : b.height = rows.length
  width_eq : b.width = (rows.headD []).length
  even : isEven rows = true

variable {b b' : Batch} {rows : List Row}

theorem holds_nil (room : Room) : Holds { room := room } [] :=
  ⟨rfl, rfl, rfl, rfl⟩

theorem Holds.enlarge (h : b.Holds rows) (more : Nat) : (b.enlarge more).Holds rows :=
  ⟨h.rows_eq, h.height_eq, h.width_eq, h.even⟩

/-- The width that a row has to keep to is that of the first row, which may be the row itself. -/
theorem Holds.width_add (h : b.Holds rows) (row : Row) :
    (if b.height = 0 then row.length else b.width) = ((rows ++ [row]).headD []).length := by
  rw [h.height_eq, h.width_eq]
  cases rows <;> rfl

theorem Holds.isEven_add (h : b.Holds rows) (row : Row) : isEven (rows ++ [row]) =
    decide (row.length ≤ ((rows ++ [row]).headD []).length) := by
  cases rows with
  | nil => simp [isEven]
  | cons first rest =>
    rw [isEven_append (List.cons_ne_nil _ _), h.even]
    simp

theorem Holds.of_add (h : b.Holds rows) {row : Row} {again : Bool} (hadd : b.add row again = .ok b') :
    b'.Holds (rows ++ [row]) ∧ b'.again = (b.again || again) := by
  rw [Batch.add] at hadd
  simp only [h.width_add row, ite_malformed_eq_ok_iff] at hadd
  obtain ⟨hw, -, -, hadd⟩ := hadd
  cases hadd
  refine ⟨⟨?_, ?_, rfl, ?_⟩, rfl⟩
  · rw [List.reverse_append, h.rows_eq]
    rfl
  · rw [List.length_append, h.height_eq]
    rfl
  · rw [h.isEven_add, decide_eq_true (by omega)]

end Batch

/-- A finished row has a cell; only one that was finished before may end without another. -/
theorem ne_nil_of_readCells {d : Char} {mark : Place} {mode : Mode} {cell : List Char} {cells : Row}
    {left : Nat} {cs : List Char} {row : Row} {next : Reader}
    (hm : mode = .rowReturn → cells ≠ [])
    (h : readCells d mark mode cell cells left cs = .row row next) : row ≠ [] := by
  induction cs generalizing mark mode cell cells left with
  | nil =>
    cases mode <;> simp only [readCells, Found.row.injEq, reduceCtorEq] at h
    case rowReturn => simpa [← h.1] using hm
    all_goals simp [← h.1]
  | cons c cs ih =>
    cases mode <;> simp only [readCells] at h
    case rowReturn =>
      cases h
      simpa using hm
    case quoted =>
      split at h <;> exact ih (by simp) h
    all_goals
      split at h
      · cases h
        simp
      · repeat' split at h
        all_goals exact ih (by simp) h

theorem mode_of_skipLines {d : Char} {mark : Place} {blanks : List Char} {returned : Bool}
    {left : Nat} {cs : List Char} {o : Opening}
    (h : skipLines d mark blanks returned left cs = some o) : o.mode ≠ .rowReturn := by
  induction cs generalizing mark blanks returned left with
  | nil => cases h
  | cons c cs ih =>
    simp only [skipLines] at h
    repeat' split at h
    all_goals first | exact ih h | (cases h; simp)

theorem Reader.ne_nil_of_next {d : Char} {r next : Reader} {again : Bool} {row : Row}
    (h : r.next d = some (again, .row row next)) : row ≠ [] := by
  rw [Reader.next] at h
  split at h
  · simp only [Option.some.injEq, Prod.mk.injEq] at h
    exact ne_nil_of_readCells (by simp) h.2
  · obtain ⟨o, ho, h⟩ := Option.map_eq_some_iff.1 h
    simp only [Prod.mk.injEq] at h
    exact ne_nil_of_readCells (fun hm => absurd hm (mode_of_skipLines ho)) h.2

theorem holds_of_gather {d : Char} {limit : Nat} {r r' : Reader} {b b' : Batch} {rows : List Row}
    (hb : b.Holds rows) (h : gather d limit r b = .ok (r', b')) :
    ∃ more, b'.Holds (rows ++ more) ∧ more.length ≤ limit ∧ [] ∉ more := by
  induction limit generalizing r b rows with
  | zero =>
    cases h
    exact ⟨[], by simpa using hb, Nat.le_refl _, by simp⟩
  | succ limit ih =>
    unfold gather at h
    split at h
    · cases h
      exact ⟨[], by simpa using hb, Nat.zero_le _, by simp⟩
    · cases h
    · next again row next hnext =>
      have hrow : [] ≠ row := (Reader.ne_nil_of_next hnext).symm
      split at h
      · cases h
      · next added hadd =>
        have ha := (hb.of_add hadd).1
        have hmore : ∃ more, b'.Holds (rows ++ [row] ++ more) ∧ more.length ≤ limit ∧
            [] ∉ more := by
          split at h
          · exact ih (ha.enlarge _) h
          · exact ih ha h
        obtain ⟨more, hm, hl, hne⟩ := hmore
        refine ⟨row :: more, ?_, ?_, ?_⟩
        · rwa [List.append_assoc] at hm
        · rw [List.length_cons]
          omega
        · simp [hrow, hne]

structure Bounded (size fileWidth : Nat) (batch : List Row) : Prop where
  ne_nil : batch ≠ []
  height : batch.length ≤ size
  width : ∀ row ∈ batch, row.length ≤ max fileWidth (batch.headD []).length
  /-- No row is without cells. -/
  cells : [] ∉ batch

theorem Batch.Holds.bounded {b : Batch} {rows : List Row} {size : Nat} (h : b.Holds rows)
    (hne : ¬ b.rows.isEmpty = true) (hl : rows.length ≤ size) (hc : [] ∉ rows) (fileWidth : Nat) :
    Bounded size fileWidth b.rows.reverse := by
  rw [h.rows_eq, List.reverse_reverse]
  refine ⟨?_, hl, fun row hrow => ?_, hc⟩
  · rintro rfl
    exact hne (by rw [h.rows_eq]; rfl)
  · exact Nat.le_trans (length_le_of_isEven h.even row hrow) (Nat.le_max_right _ _)

variable {d : Char} {size : Nat} {batch : List Row}

private theorem bounded_of_laterBatches (fileWidth : Nat) {bound : Nat} {r : Reader} {room : Room}
    (h : .ok batch ∈ laterBatches d size bound r room) : Bounded size fileWidth batch := by
  induction bound generalizing r room with
  | zero => cases h
  | succ bound ih =>
    rw [laterBatches] at h
    split at h
    · simp at h
    · next r' b hg =>
      split at h
      · cases h
      · next hne =>
        obtain ⟨rows, hb, hl, hc⟩ := holds_of_gather ((Batch.holds_nil room).enlarge _) hg
        rcases List.mem_cons.1 h with h | h
        · cases h
          exact hb.bounded hne hl hc fileWidth
        · exact ih h

private theorem bounded_of_batchesOfText (fileWidth : Nat) (hs : 0 < size) {hasHeader : Bool}
    {cs : List Char} (h : .ok batch ∈ batchesOfText d size hasHeader cs) :
    Bounded size fileWidth batch := by
  unfold batchesOfText at h
  dsimp only at h
  split at h
  · simp at h
  · next r b hg =>
    obtain ⟨⟨r₁, b₁⟩, hfirst, hg⟩ := bind_eq_ok_iff.1 hg
    split at h
    · cases h
    · next hne =>
      obtain ⟨rows₁, hb₁, hl₁, hc₁⟩ := holds_of_gather ((Batch.holds_nil .initial).enlarge _) hfirst
      obtain ⟨rows, hb, hl, hc⟩ := holds_of_gather (hb₁.enlarge _) hg
      rw [List.nil_append] at hb
      rcases List.mem_cons.1 h with h | h
      · cases h
        refine hb.bounded hne ?_ ?_ fileWidth
        · rw [List.length_append]
          omega
        · simp [hc₁, hc]
      · exact bounded_of_laterBatches fileWidth h

theorem strictBatch?_eq_ok_iff {width : Nat} {group : List (Except RowFault Row)} :
    strictBatch? width group = some (.ok batch) ↔ batch ≠ [] ∧ (∀ row ∈ batch, row.length ≤ width) ∧
      ∃ rows, group.mapM id = .ok rows ∧ rows.filter (!isBlankRow ·) = batch := by
  unfold strictBatch?
  cases group.mapM id with
  | error e => simp
  | ok rows =>
    dsimp only
    by_cases he : rows.filter (!isBlankRow ·) = []
    · simp only [he, List.isEmpty_nil, if_true]
      constructor
      · intro h
        cases h
      · rintro ⟨hne, -, rows', hr, hb⟩
        cases hr
        exact absurd (hb.symm.trans he) hne
    · rw [if_neg (by simpa using he)]
      by_cases hw : (rows.filter (!isBlankRow ·)).any (width < ·.length) = true
      · rw [if_pos hw]
        obtain ⟨row, hrow, hlt⟩ := List.any_eq_true.1 hw
        constructor
        · intro h
          cases h
        · rintro ⟨-, hall, rows', hr, rfl⟩
          cases hr
          exact absurd (hall row hrow) (Nat.not_le.2 (of_decide_eq_true hlt))
      · rw [if_neg hw, Option.some.injEq, Except.ok.injEq]
        constructor
        · rintro rfl
          refine ⟨he, fun row hrow => Nat.not_lt.1 fun hlt => hw ?_, rows, rfl, rfl⟩
          exact List.any_eq_true.2 ⟨row, hrow, decide_eq_true hlt⟩
        · rintro ⟨-, -, rows', hr, rfl⟩
          cases hr
          rfl

theorem bounded_of_strictBatch? {width fileWidth : Nat} {group : List (Except RowFault Row)}
    (hw : fileWidth = width) (hl : group.length ≤ size)
    (h : strictBatch? width group = some (.ok batch)) : Bounded size fileWidth batch := by
  obtain ⟨hne, hwidth, rows, hg, rfl⟩ := strictBatch?_eq_ok_iff.1 h
  refine ⟨hne, ?_, fun row hrow => ?_, by simp [isBlankRow]⟩
  · have hrows : rows.length = group.length := (mapM_eq_ok_iff.1 hg).length_eq.symm
    have hfilter := List.length_filter_le (!isBlankRow ·) rows
    omega
  · exact Nat.le_trans (hw ▸ hwidth row hrow) (Nat.le_max_left _ _)

theorem strictBatch?_cons {first : Row} (hf : isBlankRow first = false) (width : Nat)
    (group : List (Except RowFault Row)) : ∃ x, strictBatch? width (.ok first :: group) = some x ∧
      ∀ batch, x = .ok batch → ∃ rest, batch = first :: rest := by
  cases hx : strictBatch? width (.ok first :: group) with
  | none =>
    unfold strictBatch? at hx
    split at hx
    · cases hx
    · next rows hg =>
      obtain ⟨row, rows', hrow, -, rfl⟩ := List.forall₂_cons_left_iff.1 (mapM_eq_ok_iff.1 hg)
      cases hrow
      simp only [List.filter_cons, hf, Bool.not_false, if_true, List.isEmpty_cons,
        Bool.false_eq_true, if_false] at hx
      split at hx <;> cases hx
  | some x =>
    refine ⟨x, rfl, ?_⟩
    rintro batch rfl
    obtain ⟨-, -, rows, hg, rfl⟩ := strictBatch?_eq_ok_iff.1 hx
    obtain ⟨row, rows', hrow, -, rfl⟩ := List.forall₂_cons_left_iff.1 (mapM_eq_ok_iff.1 hg)
    cases hrow
    exact ⟨rows'.filter (!isBlankRow ·), by simp [hf]⟩

theorem splitBlank_eq_some {rows rest : List (Except RowFault Row)} {first : Row}
    (h : splitBlank rows = .ok (some (first, rest))) : isBlankRow first = false := by
  induction rows with
  | nil => cases h
  | cons x rows ih =>
    cases x with
    | error e => cases h
    | ok row =>
      rw [splitBlank] at h
      split at h
      · exact ih h
      · next hb =>
        cases h
        simpa using hb

theorem leadingRows_eq_some {rows rest : List (Except RowFault Row)} {first : Row}
    (h : leadingRows rows = .ok (some (first, rest))) : isBlankRow first = false := by
  unfold leadingRows at h
  obtain ⟨x, hx, h⟩ := bind_eq_ok_iff.1 h
  split at h
  · cases h
  · obtain ⟨y, hy, h⟩ := bind_eq_ok_iff.1 h
    split at h <;> cases h <;> exact splitBlank_eq_some hx

theorem length_le_of_isBlankRow {row : Row} (h : isBlankRow row = true) : row.length ≤ 1 := by
  match row with
  | [] => exact Nat.zero_le 1
  | [_] => exact Nat.le_refl 1
  | _ :: _ :: _ => cases h

theorem length_pos_of_isBlankRow_eq_false {row : Row} (h : isBlankRow row = false) :
    0 < row.length := by
  cases row with
  | nil => cases h
  | cons => simp

theorem length_unmarkRow {row row' : Row} (h : unmarkRow row = some row') :
    row'.length = row.length := by
  cases row with
  | nil =>
    cases h
    rfl
  | cons cell cells =>
    rw [unmarkRow] at h
    split at h
    · obtain ⟨text, -, heq⟩ := Option.map_eq_some_iff.1 h
      rw [← heq, List.length_cons, List.length_cons]
    · cases h
      rfl

/-- A strict body whose batches are all made out has no row that is not blank, or the first of these
sets the width and starts the groups, perhaps without a mark. -/
theorem groups_of_strictBody {fields size : Nat} {atStart : Bool}
    {rows : List (Except RowFault Row)} {batches : List (List Row)}
    (h : strictBody fields size atStart rows = batches.map .ok) :
    leadingRows rows = .ok none ∧ batches = [] ∨
      ∃ first start rest, leadingRows rows = .ok (some (first, rest)) ∧
        (if atStart then unmarkRow first else some first) = some start ∧ fields ≤ first.length ∧
        (groups size (.ok start :: rest)).filterMap (strictBatch? first.length) =
          batches.map .ok := by
  unfold strictBody at h
  split at h
  · cases batches <;> cases h
  · next hl => exact .inl ⟨hl, List.map_eq_nil_iff.1 h.symm⟩
  · next first rest hl =>
    split at h
    · cases batches <;> cases h
    · next start hstart =>
      unfold strictGroups at h
      split at h
      · cases batches <;> cases h
      · next hw => exact .inr ⟨first, start, rest, hl, hstart, Nat.not_lt.1 hw, h⟩

/-- The first batch is as wide as the row that starts the groups, also when that is blank. -/
private theorem fileWidth_of_groups (hs : 0 < size) {start : Row} {rest : List (Except RowFault Row)}
    (hpos : 0 < start.length) {batches : List (List Row)}
    (h : (groups size (.ok start :: rest)).filterMap (strictBatch? start.length) =
      (batch :: batches).map .ok) :
    fileWidth ((batch :: batches).map .ok) = start.length := by
  cases hb : isBlankRow start with
  | false =>
    obtain ⟨n, rfl⟩ : ∃ n, size = n + 1 := ⟨size - 1, by omega⟩
    obtain ⟨x, hx, hstart⟩ := strictBatch?_cons hb start.length (rest.take n)
    rw [groups_of_ne_nil hs (List.cons_ne_nil _ _), List.take_succ_cons,
      List.filterMap_cons_some hx] at h
    obtain ⟨rest', rfl⟩ := hstart batch (List.cons.inj h).1
    rfl
  | true =>
    -- there is one column, and every row that is not blank has a cell in it
    have hone := length_le_of_isBlankRow hb
    have hmem : Except.ok batch ∈ (batch :: batches).map (Except.ok (ε := ReadError)) := .head _
    rw [← h] at hmem
    obtain ⟨group, -, hgroup⟩ := List.mem_filterMap.1 hmem
    obtain ⟨hne, hwidth, rows, -, rfl⟩ := strictBatch?_eq_ok_iff.1 hgroup
    obtain ⟨row, others, hrow⟩ := List.exists_cons_of_ne_nil hne
    rw [hrow] at hwidth ⊢
    have hle := hwidth row List.mem_cons_self
    have hfilled : row ∈ rows.filter (!isBlankRow ·) := by simp [hrow]
    have hcell := length_pos_of_isBlankRow_eq_false (by simpa using (List.mem_filter.1 hfilled).2)
    change row.length = start.length
    omega

private theorem bounded_of_strictBody (hs : 0 < size) {fields : Nat} {atStart : Bool}
    {rows : List (Except RowFault Row)} {batches : List (List Row)}
    (h : strictBody fields size atStart rows = batches.map .ok) :
    ∀ batch ∈ batches, Bounded size (fileWidth (batches.map .ok)) batch := by
  cases batches with
  | nil => simp
  | cons batch batches =>
    obtain ⟨-, hnil⟩ | ⟨first, start, rest, hl, hstart, -, h⟩ := groups_of_strictBody h
    · cases hnil
    have hlength : start.length = first.length := by
      split at hstart
      · exact length_unmarkRow hstart
      · cases hstart
        rfl
    have hpos := length_pos_of_isBlankRow_eq_false (leadingRows_eq_some hl)
    rw [← hlength] at h hpos
    intro b hb
    have hb : Except.ok b ∈ (batch :: batches).map (Except.ok (ε := ReadError)) :=
      List.mem_map_of_mem hb
    rw [← h] at hb
    obtain ⟨group, hgroup, hg⟩ := List.mem_filterMap.1 hb
    exact bounded_of_strictBatch? (fileWidth_of_groups hs hpos h)
      (length_le_of_mem_groups hs hgroup) hg

theorem bounded_of_batchesOf {config : Config} {fields : Nat} {text : List Char}
    {batches : List (List Row)} (h : batchesOf config fields d text = batches.map .ok) :
    ∀ batch ∈ batches, Bounded config.batchSize (fileWidth (batches.map .ok)) batch := by
  intro batch hb
  have hmem : Except.ok batch ∈ batches.map (Except.ok (ε := ReadError)) := List.mem_map_of_mem hb
  unfold batchesOf at h
  split at h
  · rw [← h] at hmem
    exact bounded_of_batchesOfText _ config.batchSize_pos hmem
  · unfold strictBatches at h
    dsimp only at h
    split at h
    · split at h
      · rw [← h] at hmem
        cases hmem
      · rw [← h] at hmem
        simp at hmem
      · exact bounded_of_strictBody config.batchSize_pos h batch hb
    · exact bounded_of_strictBody config.batchSize_pos h batch hb

section Fault
variable {e : ReadError}

private theorem ite_malformed_eq_error {α : Type} {p : Prop} [Decidable p]
    {x : Except ReadError α} (h : (if p then malformed else x) = .error e) :
    e = .source .malformed ∨ x = .error e := by
  by_cases hp : p
  · rw [if_pos hp] at h
    exact .inl (malformed_eq_error_iff.1 h)
  · rw [if_neg hp] at h
    exact .inr h

theorem Batch.add_eq_error {b : Batch} {row : Row} {again : Bool} (h : b.add row again = .error e) :
    e = .source .malformed := by
  rw [Batch.add] at h
  rcases ite_malformed_eq_error h with h | h
  · exact h
  · rcases ite_malformed_eq_error h with h | h
    · exact h
    · rcases ite_malformed_eq_error h with h | h
      · exact h
      · cases h

private theorem gather_eq_error {limit : Nat} {r : Reader} {b : Batch}
    (h : gather d limit r b = .error e) : e = .source .malformed := by
  induction limit generalizing r b with
  | zero => cases h
  | succ limit ih =>
    unfold gather at h
    split at h
    · cases h
    · exact malformed_eq_error_iff.1 h
    · split at h
      · next hadd =>
        cases h
        exact Batch.add_eq_error hadd
      · exact ih h

private theorem error_of_laterBatches {bound : Nat} {r : Reader} {room : Room}
    (h : .error e ∈ laterBatches d size bound r room) : e = .source .malformed := by
  induction bound generalizing r room with
  | zero => cases h
  | succ bound ih =>
    rw [laterBatches] at h
    split at h
    · next hg =>
      cases List.mem_singleton.1 h
      exact gather_eq_error hg
    · split at h
      · cases h
      · rcases List.mem_cons.1 h with h | h
        · cases h
        · exact ih h

private theorem error_of_batchesOfText {hasHeader : Bool} {cs : List Char}
    (h : .error e ∈ batchesOfText d size hasHeader cs) : e = .source .malformed := by
  unfold batchesOfText at h
  dsimp only at h
  split at h
  · next hg =>
    cases List.mem_singleton.1 h
    rcases bind_eq_error_iff.1 hg with hg | ⟨x, -, hg⟩
    · exact gather_eq_error hg
    · exact gather_eq_error hg
  · split at h
    · cases h
    · rcases List.mem_cons.1 h with h | h
      · cases h
      · exact error_of_laterBatches h

private theorem splitBlank_eq_error {rows : List (Except RowFault Row)}
    (h : splitBlank rows = .error e) : e = .source .malformed := by
  induction rows with
  | nil => cases h
  | cons x rows ih =>
    cases x with
    | error q => exact malformed_eq_error_iff.1 h
    | ok row =>
      rw [splitBlank] at h
      split at h
      · exact ih h
      · cases h

private theorem leadingRows_eq_error {rows : List (Except RowFault Row)}
    (h : leadingRows rows = .error e) : e = .source .malformed := by
  unfold leadingRows at h
  rcases bind_eq_error_iff.1 h with h | ⟨x, -, h⟩
  · exact splitBlank_eq_error h
  · split at h
    · cases h
    · rcases bind_eq_error_iff.1 h with h | ⟨y, -, h⟩
      · exact splitBlank_eq_error h
      · split at h <;> cases h

private theorem strictBatch?_eq_error {width : Nat} {group : List (Except RowFault Row)}
    (h : strictBatch? width group = some (.error e)) :
    e = .source .malformed ∨ ∃ q, e = .row q := by
  unfold strictBatch? at h
  split at h
  · next q _ =>
    cases h
    exact .inr ⟨q, rfl⟩
  · dsimp only at h
    split at h
    · cases h
    · split at h
      · exact .inl (malformed_eq_error_iff.1 (Option.some.inj h))
      · cases h

theorem narrowError_cases (width : Nat) (group : List (Except RowFault Row)) :
    narrowError width group = .narrow ∨
      strictBatch? width group = some (.error (narrowError width group)) := by
  unfold narrowError
  split
  · next h => exact .inr h
  · exact .inl rfl

private theorem error_of_strictBody {fields : Nat} {atStart : Bool}
    {rows : List (Except RowFault Row)} (h : .error e ∈ strictBody fields size atStart rows) :
    e = .source .malformed ∨ e = .narrow ∨ ∃ q, e = .row q := by
  unfold strictBody at h
  split at h
  · next hl =>
    cases List.mem_singleton.1 h
    exact .inl (leadingRows_eq_error hl)
  · cases h
  · split at h
    · cases List.mem_singleton.1 h
      exact .inl rfl
    · unfold strictGroups at h
      split at h
      · cases List.mem_singleton.1 h
        rcases narrowError_cases _ _ with h | h
        · exact .inr (.inl h)
        · exact (strictBatch?_eq_error h).imp_right .inr
      · obtain ⟨group, -, hg⟩ := List.mem_filterMap.1 h
        exact (strictBatch?_eq_error hg).imp_right .inr

/-- Only a strict text can have a row at fault or too few columns, and every other fault is malformed
content. -/
theorem error_of_batchesOf {config : Config} {fields : Nat} {text : List Char}
    (h : .error e ∈ batchesOf config fields d text) :
    e = .source .malformed ∨
      Grammar.ofDelimiter d = .strict ∧ (e = .narrow ∨ ∃ q, e = .row q) := by
  unfold batchesOf at h
  split at h
  · exact .inl (error_of_batchesOfText h)
  · next hd =>
    have hstrict : e = .source .malformed ∨ e = .narrow ∨ ∃ q, e = .row q := by
      unfold strictBatches at h
      dsimp only at h
      split at h
      · split at h
        · cases h
        · next q _ _ =>
          cases List.mem_singleton.1 h
          exact .inr (.inr ⟨q, rfl⟩)
        · exact error_of_strictBody h
      · exact error_of_strictBody h
    exact hstrict.imp_right fun hq => ⟨hd, hq⟩

end Fault

end QueryPlan.Csv
