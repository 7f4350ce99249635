import QueryPlan.Proofs.Csv.Gathering
import QueryPlan.Proofs.Csv.Standing
/-!
# Steady texts are read plainly

A reader of a steady text gathers the records that follow it until a batch has all its rows, or until
a record is wider than the first one of its batch or is not closed. The batches of a steady text are
therefore the groups of its records.
-/
namespace QueryPlan.Csv

/-- What the rows of a batch come to when up to `limit` more records join them: the rows and the
records left. -/
def gathered (limit : Nat) (rows : List Row) (rs : List (Option Row)) :
    Except ReadError (List Row × List (Option Row)) :=
  match (rs.take limit).mapM id with
  | none => malformed
  | some more => if isEven (rows ++ more) then .ok (rows ++ more, rs.drop limit) else malformed

/-- As long as no row is read again, a row finds room unless it is too wide. -/
theorem Batch.Holds.add {b : Batch} {rows : List Row} (h : b.Holds rows) (hag : b.again = false)
    (row : Row) : b.add row false = malformed ∧ isEven (rows ++ [row]) = false ∨
      ∃ b', b.add row false = .ok b' ∧ b'.Holds (rows ++ [row]) ∧ b'.again = false := by
  have hagain : (b.again || false) = false := by rw [hag, Bool.or_false]
  by_cases hw : ((rows ++ [row]).headD []).length < row.length
  · refine .inl ⟨?_, ?_⟩
    · rw [Batch.add]
      simp only [h.width_add row, hw, if_true]
    · rw [h.isEven_add, decide_eq_false (by omega)]
  · right
    cases hadd : b.add row false with
    | error e =>
      rw [Batch.add] at hadd
      simp only [h.width_add row, hagain, hw, if_false, Bool.false_and, Bool.false_eq_true] at hadd
      cases hadd
    | ok b' =>
      obtain ⟨hb, ha⟩ := h.of_add hadd
      exact ⟨b', rfl, hb, ha.trans hagain⟩

theorem gathered_zero {rows : List Row} {rs : List (Option Row)} (h : isEven rows = true) :
    gathered 0 rows rs = .ok (rows, rs) := by
  simp [gathered, h]

theorem gathered_nil {limit : Nat} {rows : List Row} (h : isEven rows = true) :
    gathered limit rows [] = .ok (rows, []) := by
  simp [gathered, h]

theorem gathered_none {limit : Nat} {rows : List Row} {rs : List (Option Row)} :
    gathered (limit + 1) rows (none :: rs) = malformed := by
  simp [gathered]

theorem gathered_some {limit : Nat} {rows : List Row} {row : Row} {rs : List (Option Row)} :
    gathered (limit + 1) rows (some row :: rs) =
      if isEven (rows ++ [row]) then gathered limit (rows ++ [row]) rs else malformed := by
  rw [gathered, List.take_succ_cons, List.drop_succ_cons, List.mapM_cons, gathered]
  cases (rs.take limit).mapM id with
  | none => simp
  | some more =>
    have hmore : rows ++ row :: more = rows ++ [row] ++ more := by simp
    cases he : isEven (rows ++ [row]) with
    | true =>
      simp only [if_true, ← hmore]
      rfl
    | false =>
      have hnot : isEven (rows ++ row :: more) = false := by
        rw [hmore, isEven_append_of_not he]
      change (if isEven (rows ++ row :: more) = true then _ else _) = _
      rw [hnot]
      rfl

structure StandFor (d : Char) (bound : Nat) (x : Reader × Batch)
    (y : List Row × List (Option Row)) : Prop where
  rows : x.2.Holds y.1
  again : x.2.again = false
  standsFor : x.1.StandsFor d y.2
  size : x.1.size + y.1.length ≤ bound

def Follows (d : Char) (bound : Nat) (x : Except ReadError (Reader × Batch))
    (y : Except ReadError (List Row × List (Option Row))) : Prop :=
  match x, y with
  | .ok x, .ok y => StandFor d bound x y
  | .error e, .error e' => e = e'
  | _, _ => False

theorem gather_follows {d : Char} (limit : Nat) {r : Reader} {rs : List (Option Row)} {b : Batch}
    {rows : List Row} (hr : r.StandsFor d rs) (hb : b.Holds rows) (hag : b.again = false)
    {bound : Nat} (hbound : r.size + rows.length ≤ bound) :
    Follows d bound (gather d limit r b) (gathered limit rows rs) := by
  induction limit generalizing r rs b rows with
  | zero =>
    rw [gathered_zero hb.even]
    exact ⟨hb, hag, hr, hbound⟩
  | succ limit ih =>
    unfold gather
    rcases hr.next with ⟨hnext, rfl⟩ | ⟨found, hnext, hpos, hreads⟩
    · rw [hnext, gathered_nil hb.even]
      exact ⟨hb, hag, hr, hbound⟩
    · rw [hnext]
      cases found with
      | unterminated =>
        rw [show rs = [none] from hreads, gathered_none]
        rfl
      | row row next =>
        obtain ⟨rest, hn, hl, rfl⟩ := hreads
        rw [gathered_some]
        dsimp only
        rcases hb.add hag row with ⟨hadd, he⟩ | ⟨b', hadd, hb', hag'⟩
        · rw [hadd, he]
          rfl
        · rw [hadd, hb'.even]
          -- the row took at least one character, which pays for the row itself
          have hrest : next.size + (rows ++ [row]).length ≤ bound := by
            rw [List.length_append, List.length_singleton]
            omega
          dsimp only
          split
          · exact ih hn (hb'.enlarge _) hag' hrest
          · exact ih hn hb' hag' hrest

theorem gatherFromHere_follows {d : Char} (limit : Nat) {r : Reader} {rs : List (Option Row)}
    {b : Batch} {rows : List Row} (hr : r.StandsFor d rs) (hb : b.Holds rows)
    (hag : b.again = false) {bound : Nat} (hbound : r.size + rows.length ≤ bound) :
    Follows d bound (gatherFromHere d limit r b) (gathered limit rows rs) :=
  gather_follows limit hr.markHere (hb.enlarge _) hag (by simpa using hbound)

theorem gathered_eq {size : Nat} {rs : List (Option Row)} :
    gathered size [] rs = (batchOfRecords (rs.take size)).map fun rows => (rows, rs.drop size) := by
  rw [gathered, batchOfRecords]
  cases (rs.take size).mapM id with
  | none => rfl
  | some rows =>
    dsimp only
    rw [List.nil_append]
    cases isEven rows <;> rfl

theorem plainBatches_of_ne_nil {size : Nat} (hs : 0 < size) {rs : List (Option Row)}
    (hrs : rs ≠ []) : plainBatches size rs =
      match batchOfRecords (rs.take size) with
      | .error e => [.error e]
      | .ok rows => .ok rows :: plainBatches size (rs.drop size) := by
  rw [plainBatches, groups_of_ne_nil hs hrs, List.map_cons]
  cases batchOfRecords (rs.take size) with
  | error e => rfl
  | ok rows => rfl

theorem ne_nil_of_batchOfRecords {size : Nat} (hs : 0 < size) {rs : List (Option Row)}
    {rows : List Row} (hrs : rs ≠ []) (h : batchOfRecords (rs.take size) = .ok rows) :
    rows ≠ [] := by
  rintro rfl
  have ht := (batchOfRecords_eq_ok_iff.1 h).1
  rw [List.map_nil, List.take_eq_nil_iff] at ht
  exact ht.elim (fun h0 => absurd h0 (by omega)) hrs

def batchesFrom (later : Reader → Room → List (Except ReadError (List Row))) :
    Except ReadError (Reader × Batch) → List (Except ReadError (List Row))
  | .error e => [.error e]
  | .ok (r, b) => if b.rows.isEmpty then [] else .ok b.rows.reverse :: later r b.room.emptied

theorem laterBatches_succ (d : Char) (size bound : Nat) (r : Reader) (room : Room) :
    laterBatches d size (bound + 1) r room =
      batchesFrom (laterBatches d size bound) (gatherFromHere d size r { room := room }) := by
  rw [laterBatches]
  cases gatherFromHere d size r { room := room } <;> rfl

theorem batchesOfText_eq_batchesFrom (d : Char) (size : Nat) (hasHeader : Bool) (cs : List Char) :
    batchesOfText d size hasHeader cs =
      batchesFrom (fun r => laterBatches d size (r.place.rest.length + 1) r)
        (gather d 1
          (if hasHeader then Reader.afterHeader d (Place.blockStart cs)
            else Reader.ofPlace (Place.blockStart cs))
          (Batch.enlarge { room := .initial } (Place.blockStart cs).bytes) >>=
            fun x => gatherFromHere d (size - 1) x.1 x.2) := by
  rw [batchesOfText]
  dsimp only
  generalize (if hasHeader = true then Reader.afterHeader d (Place.blockStart cs)
    else Reader.ofPlace (Place.blockStart cs)) = r
  cases gather d 1 r (Batch.enlarge { room := .initial } (Place.blockStart cs).bytes) with
  | error e => rfl
  | ok x =>
    change (match gatherFromHere d (size - 1) x.1 x.2 with
      | .error e => _
      | .ok (r, b) => _) = batchesFrom _ (gatherFromHere d (size - 1) x.1 x.2)
    cases gatherFromHere d (size - 1) x.1 x.2 <;> rfl

theorem batchesFrom_eq {d : Char} {size bound : Nat} (hs : 0 < size) {rs : List (Option Row)}
    {x : Except ReadError (Reader × Batch)}
    (later : Reader → Room → List (Except ReadError (List Row)))
    (hx : Follows d bound x (gathered size [] rs))
    (hlater : ∀ r rs room, r.StandsFor d rs → r.size < bound →
      later r room = plainBatches size rs) :
    batchesFrom later x = plainBatches size rs := by
  by_cases hrs : rs = []
  · subst hrs
    rw [gathered_nil rfl] at hx
    -- no record is left: the batch stays empty, and it is the last
    cases x with
    | error e => exact hx.elim
    | ok x =>
      have hrows : x.2.rows = [] := hx.rows.rows_eq
      simp [batchesFrom, hrows, plainBatches, upToFailure]
  · rw [plainBatches_of_ne_nil hs hrs]
    rw [gathered_eq] at hx
    cases hb : batchOfRecords (rs.take size) with
    | error e =>
      rw [hb] at hx
      cases x with
      | error e' => exact congrArg (fun e => [Except.error e]) hx
      | ok x => exact hx.elim
    | ok rows =>
      rw [hb] at hx
      cases x with
      | error e' => exact hx.elim
      | ok x =>
        obtain ⟨hrows, -, hr, hlength⟩ := hx
        have hne := ne_nil_of_batchOfRecords hs hrs hb
        have hpos : 0 < rows.length := List.length_pos_iff.2 hne
        have hrev : x.2.rows = rows.reverse := hrows.rows_eq
        have hlt : x.1.size < bound := by
          have hle : x.1.size + rows.length ≤ bound := hlength
          omega
        have hl : later x.1 x.2.room.emptied = plainBatches size (rs.drop size) :=
          hlater _ _ _ hr hlt
        rw [batchesFrom, hl, hrev, List.reverse_reverse, if_neg (by simpa using hne)]

theorem laterBatches_eq {d : Char} {size : Nat} (hs : 0 < size) (bound : Nat) {r : Reader}
    {rs : List (Option Row)} (hr : r.StandsFor d rs) (hb : r.size ≤ bound) (room : Room) :
    laterBatches d size bound r room = plainBatches size rs := by
  induction bound generalizing r rs room with
  | zero =>
    -- a record would take a character at least
    obtain ⟨-, rfl⟩ | ⟨_, -, hpos, -⟩ := hr.next
    · rfl
    · exact absurd hpos (by omega)
  | succ bound ih =>
    have hx := gatherFromHere_follows size hr (Batch.holds_nil room) rfl (Nat.le_refl (r.size + 0))
    rw [laterBatches_succ]
    apply batchesFrom_eq hs _ hx
    intro r rs room hr hlt
    exact ih hr (by omega) room

theorem gathered_add {m n : Nat} {rows : List Row} {rs : List (Option Row)} :
    gathered (m + n) rows rs = gathered m rows rs >>= fun y => gathered n y.1 y.2 := by
  rw [gathered, gathered, List.take_add, List.mapM_append]
  cases (rs.take m).mapM id with
  | none => rfl
  | some more =>
    cases he : isEven (rows ++ more) with
    | false =>
      have hnot : ∀ others, isEven (rows ++ (more ++ others)) = false := fun others => by
        rw [← List.append_assoc, isEven_append_of_not he]
      simp only [he, Bool.false_eq_true, if_false]
      cases ((rs.drop m).take n).mapM id with
      | none => rfl
      | some others =>
        change (if isEven (rows ++ (more ++ others)) = true then _ else _) = _
        rw [hnot]
        rfl
    | true =>
      simp only [he, if_true]
      change _ = gathered n (rows ++ more) (rs.drop m)
      rw [gathered, List.drop_drop]
      cases ((rs.drop m).take n).mapM id with
      | none => rfl
      | some others =>
        simp only [List.append_assoc]
        rfl

theorem Follows.bind {d : Char} {bound : Nat} {x : Except ReadError (Reader × Batch)}
    {y : Except ReadError (List Row × List (Option Row))}
    {f : Reader × Batch → Except ReadError (Reader × Batch)}
    {g : List Row × List (Option Row) → Except ReadError (List Row × List (Option Row))}
    (h : Follows d bound x y)
    (hfg : ∀ x y, StandFor d bound x y → Follows d bound (f x) (g y)) :
    Follows d bound (x >>= f) (y >>= g) := by
  cases x with
  | error e =>
    cases y with
    | error e' => exact h
    | ok y => exact h.elim
  | ok x =>
    cases y with
    | error e' => exact h.elim
    | ok y => exact hfg x y h

/-- The batches of a steady text are groups of its records. -/
theorem batchesOfText_eq {d : Char} {size : Nat} (hs : 0 < size) (hasHeader : Bool)
    {cs : List Char} (h : isSteadyText d hasHeader cs = true) :
    batchesOfText d size hasHeader cs = plainBatches size (recordsOf d hasHeader cs) := by
  have hr := start_standsFor h
  rw [batchesOfText_eq_batchesFrom]
  generalize (if hasHeader = true then Reader.afterHeader d (Place.blockStart cs)
    else Reader.ofPlace (Place.blockStart cs)) = r at hr ⊢
  have hb := (Batch.holds_nil .initial).enlarge (Place.blockStart cs).bytes
  have hfirst := gather_follows 1 hr hb rfl (Nat.le_refl (r.size + 0))
  have hx := hfirst.bind (f := fun x => gatherFromHere d (size - 1) x.1 x.2)
    (g := fun y => gathered (size - 1) y.1 y.2) fun x y hxy =>
      gatherFromHere_follows (size - 1) hxy.standsFor hxy.rows hxy.again hxy.size
  rw [← gathered_add, show 1 + (size - 1) = size by omega] at hx
  exact batchesFrom_eq hs (fun r => laterBatches d size (r.place.rest.length + 1) r) hx
    fun r rs room hr _ => laterBatches_eq hs _ hr r.size_le room

end QueryPlan.Csv
