import QueryPlan.Csv.Batch
import QueryPlan.Csv.StrictRow
import QueryPlan.Proofs.Csv.Grouping
import QueryPlan.Proofs.Traversal
/-!
# Records of a text

The rows of a text by its lines alone, without blocks and marks: a line feed or a carriage return
outside quotes ends a record, and lines that are empty or hold only blanks are no records. Records
are read plainly when each batch is the next group of them, up to the first group in which a record
is wider than the first one or is not closed.
-/
namespace QueryPlan.Csv

/-- The records of a text. The current cell and the finished ones are latest first. Before the first
cell of a record there is no mode yet, and the current cell holds the blanks of the line. A record
that the text leaves open comes last and is `none`. -/
def records (delimiter : Char) (mode : Option Mode) (cell : List Char) (cells : Row) :
    List Char → List (Option Row)
  | [] =>
    match mode with
    | none => []
    | some .quoted => [none]
    | some _ => [some (cellText cell :: cells).reverse]
  | c :: cs =>
    if mode = some .quoted then
      if c = '"' then records delimiter (some .quoteSeen) cell cells cs
      else records delimiter (some .quoted) (c :: cell) cells cs
    else if mode = none ∧ (c = '\n' ∨ c = '\r') then records delimiter none [] [] cs
    else if mode = none ∧ isBlank delimiter c then records delimiter none (c :: cell) [] cs
    else
      let mode := mode.getD (if cell.isEmpty then .cellStart else .plain)
      if c = '\n' ∨ c = '\r' then
        some (cellText cell :: cells).reverse :: records delimiter none [] [] cs
      else if c = '"' ∧ mode = .cellStart then records delimiter (some .quoted) [] cells cs
      else if c = '"' ∧ mode = .quoteSeen then records delimiter (some .quoted) (c :: cell) cells cs
      else if c = delimiter then
        records delimiter (some .cellStart) [] (cellText cell :: cells) cs
      else records delimiter (some .plain) (c :: cell) cells cs

def afterLine (delimiter : Char) (mode : Mode) : List Char → List Char
  | [] => []
  | c :: cs =>
    if mode = .quoted then afterLine delimiter (if c = '"' then .quoteSeen else .quoted) cs
    else if c = '\n' ∨ c = '\r' then cs
    else if c = '"' ∧ (mode = .cellStart ∨ mode = .quoteSeen) then afterLine delimiter .quoted cs
    else afterLine delimiter (if c = delimiter then .cellStart else .plain) cs

/-- What follows a header. The first character of a text that is no line feed opens quotes or
belongs to a cell. -/
def afterHeaderLine (delimiter : Char) : List Char → List Char
  | [] => []
  | c :: cs =>
    if c = '\n' then cs else afterLine delimiter (if c = '"' then .quoted else .plain) cs

def recordsOf (delimiter : Char) (hasHeader : Bool) (text : List Char) : List (Option Row) :=
  records delimiter none [] [] (if hasHeader then afterHeaderLine delimiter text else text)

/-- The records of a text whose header, if it has one, ends where any other line would. -/
def plainRecords (delimiter : Char) (hasHeader : Bool) (text : List Char) : List (Option Row) :=
  records delimiter none [] [] (if hasHeader then afterLine delimiter .cellStart text else text)

/-- A carriage return inside quotes belongs to its cell, and outside it ends the record. -/
example : records ',' none [] [] " \n a,\"b\r\"\r\nc".toList =
    [some [" a", "b\r"], some ["c"]] := by decide

def isEven (rows : List Row) : Bool :=
  rows.all fun row => row.length ≤ (rows.headD []).length

def batchOfRecords (rs : List (Option Row)) : Except ReadError (List Row) :=
  match rs.mapM id with
  | none => malformed
  | some rows => if isEven rows then .ok rows else malformed

def plainBatches (size : Nat) (rs : List (Option Row)) : List (Except ReadError (List Row)) :=
  upToFailure ((groups size rs).map batchOfRecords)

theorem upToFailure_eq_map_ok_iff {ε α : Type} {xs : List (Except ε α)} {ys : List α} :
    upToFailure xs = ys.map .ok ↔ xs = ys.map .ok := by
  induction xs generalizing ys with
  | nil => rfl
  | cons x xs ih =>
    cases x with
    | error e => cases ys <;> simp [upToFailure]
    | ok a =>
      cases ys with
      | nil => simp [upToFailure]
      | cons y ys => simp [upToFailure, ih]

theorem upToFailure_append {ε α : Type} (as : List α) (xs : List (Except ε α)) :
    upToFailure (as.map .ok ++ xs) = as.map .ok ++ upToFailure xs := by
  induction as with
  | nil => rfl
  | cons a as ih => rw [List.map_cons, List.cons_append, upToFailure, ih, List.cons_append]

/-- A list succeeds as a whole, or nothing behind it matters. -/
theorem upToFailure_cases {ε α : Type} (xs : List (Except ε α)) :
    (∃ as : List α, xs = as.map .ok) ∨
      ∃ (as : List α) (e : ε), ∀ ys, upToFailure (xs ++ ys) = as.map .ok ++ [.error e] := by
  induction xs with
  | nil => exact .inl ⟨[], rfl⟩
  | cons x xs ih =>
    cases x with
    | error e => exact .inr ⟨[], e, fun _ => rfl⟩
    | ok a =>
      rcases ih with ⟨as, rfl⟩ | ⟨as, e, h⟩
      · exact .inl ⟨a :: as, rfl⟩
      · refine .inr ⟨a :: as, e, fun ys => ?_⟩
        rw [List.cons_append, upToFailure, h]
        rfl

theorem batchOfRecords_eq_ok_iff {rs : List (Option Row)} {rows : List Row} :
    batchOfRecords rs = .ok rows ↔ rs = rows.map some ∧ isEven rows = true := by
  rw [← mapM_id_eq_some_iff, batchOfRecords]
  cases rs.mapM id with
  | none => simp [malformed]
  | some xs =>
    by_cases he : isEven xs = true
    · simp only [he, if_true, Except.ok.injEq, Option.some.injEq]
      constructor
      · rintro rfl
        exact ⟨rfl, he⟩
      · exact And.left
    · simp only [he, Bool.false_eq_true, if_false, malformed, Option.some.injEq]
      constructor
      · intro h
        cases h
      · rintro ⟨rfl, h⟩
        exact absurd h he

theorem plainBatches_eq_ok_iff {size : Nat} (hs : 0 < size) {rs : List (Option Row)}
    {batches : List (List Row)} : plainBatches size rs = batches.map .ok ↔
      ∃ rows, rs = rows.map some ∧ batches = groups size rows ∧
        ∀ batch ∈ batches, isEven batch = true := by
  rw [plainBatches, upToFailure_eq_map_ok_iff]
  constructor
  · intro h
    have hb : List.Forall₂ (fun group batch => group = List.map some batch ∧ isEven batch = true)
        (groups size rs) batches := by
      have hf := (List.forall₂_eq_eq_eq (α := Except ReadError (List Row))).symm ▸ h
      rw [List.forall₂_map_left_iff, List.forall₂_map_right_iff] at hf
      exact hf.imp fun _ _ => batchOfRecords_eq_ok_iff.1
    have hg : groups size rs = batches.map (List.map some) := by
      rw [← List.forall₂_eq_eq_eq, List.forall₂_map_right_iff]
      exact hb.imp fun _ _ => And.left
    have hr : rs = batches.flatten.map some := by
      rw [← flatten_groups hs rs, hg, List.map_flatten]
    refine ⟨batches.flatten, hr, ?_, ?_⟩
    · have hm : batches.map (List.map some) = (groups size batches.flatten).map (List.map some) := by
        rw [← groups_map hs, ← hr, hg]
      exact List.map_injective_iff.2 map_some_injective hm
    · intro batch hm
      obtain ⟨group, -, -, he⟩ := exists_of_mem_right hb hm
      exact he
  · rintro ⟨rows, rfl, rfl, he⟩
    rw [groups_map hs, List.map_map]
    exact List.map_congr_left fun batch hm => batchOfRecords_eq_ok_iff.2 ⟨rfl, he batch hm⟩

end QueryPlan.Csv
