import QueryPlan.Proofs.Csv.PlainReading
/-!
# Batches with other room

The room of a batch bounds only the rows that are read again. Two batches that start with different
room gather the same rows from one reader, unless a row is read again and one of them runs out of
room, which makes it malformed. So the batches of a reader are the same up to where that happens.
-/
namespace QueryPlan.Csv

inductive Reader.Leads (d : Char) (r : Reader) : Reader → Prop where
  | refl : Leads d r r
  | row {r' next : Reader} {again : Bool} {row : Row} (h : Leads d r r')
    (hnext : r'.next d = some (again, .row row next)) : Leads d r next
  | markHere {r' : Reader} (h : Leads d r r') : Leads d r r'.markHere

def Reader.ReadsAgain (d : Char) (r : Reader) : Prop :=
  ∃ r' found, r.Leads d r' ∧ r'.next d = some (true, found)

theorem Reader.StandsFor.leads {d : Char} {r r' : Reader} {rs : List (Option Row)}
    (h : r.StandsFor d rs) (hl : r.Leads d r') : ∃ rs', r'.StandsFor d rs' := by
  induction hl with
  | refl => exact ⟨rs, h⟩
  | row _ hnext ih =>
    obtain ⟨_, h'⟩ := ih
    obtain ⟨hn, -⟩ | ⟨found, hn, -, hreads⟩ := h'.next
    · rw [hn] at hnext
      cases hnext
    · rw [hn] at hnext
      cases hnext
      obtain ⟨rest, hrest, -⟩ := hreads
      exact ⟨rest, hrest⟩
  | markHere _ ih =>
    obtain ⟨rs', h'⟩ := ih
    exact ⟨rs', h'.markHere⟩

theorem Reader.StandsFor.not_readsAgain {d : Char} {r : Reader} {rs : List (Option Row)}
    (h : r.StandsFor d rs) : ¬ r.ReadsAgain d := by
  rintro ⟨r', found, hl, hnext⟩
  obtain ⟨_, h'⟩ := h.leads hl
  obtain ⟨hn, -⟩ | ⟨_, hn, -⟩ := h'.next
  · rw [hn] at hnext
    cases hnext
  · rw [hn] at hnext
    cases hnext

/-- Two batches that differ in nothing but their bytes and their room. -/
structure Batch.Alike (b b' : Batch) : Prop where
  rows : b.rows = b'.rows
  height : b.height = b'.height
  width : b.width = b'.width
  again : b.again = b'.again

/-- Two results that are alike, unless something is the case and one of them is malformed. -/
inductive AlikeUnless {α : Type} (exception : Prop) (alike : α → α → Prop) :
    Except ReadError α → Except ReadError α → Prop where
  | ok {x y : α} (h : alike x y) : AlikeUnless exception alike (.ok x) (.ok y)
  | error (e : ReadError) : AlikeUnless exception alike (.error e) (.error e)
  | left (h : exception) (y : Except ReadError α) : AlikeUnless exception alike malformed y
  | right (h : exception) (x : Except ReadError α) : AlikeUnless exception alike x malformed

inductive SameUnless (exception : Prop) :
    List (Except ReadError (List Row)) → List (Except ReadError (List Row)) → Prop where
  | same (batches : List (Except ReadError (List Row))) : SameUnless exception batches batches
  | left (h : exception) (batches : List (Except ReadError (List Row))) :
    SameUnless exception [malformed] batches
  | right (h : exception) (batches : List (Except ReadError (List Row))) :
    SameUnless exception batches [malformed]
  | cons (rows : List Row) {batches batches' : List (Except ReadError (List Row))}
    (h : SameUnless exception batches batches') :
    SameUnless exception (.ok rows :: batches) (.ok rows :: batches')

theorem AlikeUnless.bind {α : Type} {exception : Prop} {alike : α → α → Prop}
    {x y : Except ReadError α} {f g : α → Except ReadError α}
    (h : AlikeUnless exception alike x y)
    (hfg : ∀ a b, alike a b → AlikeUnless exception alike (f a) (g b)) :
    AlikeUnless exception alike (x >>= f) (y >>= g) := by
  cases h with
  | ok h => exact hfg _ _ h
  | error e => exact .error e
  | left h => exact .left h _
  | right h => exact .right h _

namespace Batch
variable {b b' : Batch} {exception : Prop}

theorem Alike.enlarge (h : b.Alike b') (more more' : Nat) :
    (b.enlarge more).Alike (b'.enlarge more') :=
  ⟨h.rows, h.height, h.width, h.again⟩

theorem alike_of_room (room room' : Room) : Alike { room := room } { room := room' } :=
  ⟨rfl, rfl, rfl, rfl⟩

theorem Alike.symm (h : b.Alike b') : b'.Alike b :=
  ⟨h.rows.symm, h.height.symm, h.width.symm, h.again.symm⟩

theorem Alike.of_add (h : b.Alike b') {row : Row} {again : Bool} {next next' : Batch}
    (hadd : b.add row again = .ok next) (hadd' : b'.add row again = .ok next') :
    next.Alike next' ∧ next.again = (b.again || again) := by
  rw [add] at hadd hadd'
  simp only [ite_malformed_eq_ok_iff] at hadd hadd'
  obtain ⟨-, -, -, hadd⟩ := hadd
  obtain ⟨-, -, -, hadd'⟩ := hadd'
  cases hadd
  cases hadd'
  exact ⟨⟨congrArg (row :: ·) h.rows, congrArg (· + 1) h.height, by rw [h.height, h.width],
    congrArg (· || again) h.again⟩, rfl⟩

theorem Alike.exists_add (h : b.Alike b') {row : Row} {again : Bool} {next' : Batch}
    (ha : ¬ (b.again || again) = true) (hadd' : b'.add row again = .ok next') :
    ∃ next, b.add row again = .ok next := by
  rw [add] at hadd'
  simp only [ite_malformed_eq_ok_iff] at hadd'
  obtain ⟨hw, -⟩ := hadd'
  rw [← h.height, ← h.width] at hw
  rw [add, if_neg hw, if_neg (by simp [ha]), if_neg (by simp [ha])]
  exact ⟨_, rfl⟩

theorem Alike.add (h : b.Alike b') (row : Row) (again : Bool)
    (hagain : (b.again || again) = true → exception) :
    AlikeUnless exception (fun x y => x.Alike y ∧ (x.again = true → exception))
      (b.add row again) (b'.add row again) := by
  cases hx : b.add row again with
  | ok next =>
    cases hy : b'.add row again with
    | ok next' =>
      obtain ⟨halike, heq⟩ := h.of_add hx hy
      exact .ok ⟨halike, heq ▸ hagain⟩
    | error e =>
      cases add_eq_error hy
      refine .right (hagain ?_) _
      by_contra ha
      obtain ⟨next', hnext⟩ := h.symm.exists_add (h.again ▸ ha) hx
      rw [hy] at hnext
      cases hnext
  | error e =>
    cases add_eq_error hx
    cases hy : b'.add row again with
    | error e' =>
      cases add_eq_error hy
      exact .error _
    | ok next' =>
      refine .left (hagain ?_) _
      by_contra ha
      obtain ⟨next, hnext⟩ := h.exists_add ha hy
      rw [hx] at hnext
      cases hnext

end Batch

section Gather
variable {d : Char} {start r : Reader} {b b' : Batch}

/-- Where two runs of gathering stand: at the same place, which the reader at the start leads to, with
batches that are alike. -/
structure GatherAlike (d : Char) (start : Reader) (x y : Reader × Batch) : Prop where
  reader : x.1 = y.1
  leads : start.Leads d x.1
  batch : x.2.Alike y.2
  again : x.2.again = true → start.ReadsAgain d

theorem gather_alike (limit : Nat) (hr : start.Leads d r) (hb : b.Alike b')
    (hagain : b.again = true → start.ReadsAgain d) :
    AlikeUnless (start.ReadsAgain d) (GatherAlike d start) (gather d limit r b)
      (gather d limit r b') := by
  induction limit generalizing r b b' with
  | zero => exact .ok ⟨rfl, hr, hb, hagain⟩
  | succ limit ih =>
    unfold gather
    cases hnext : r.next d with
    | none => exact .ok ⟨rfl, hr, hb, hagain⟩
    | some x =>
      obtain ⟨again, found⟩ := x
      cases found with
      | unterminated => exact .error _
      | row row next =>
        have hagain' : (b.again || again) = true → start.ReadsAgain d := by
          intro h
          rcases Bool.or_eq_true_iff.1 h with h | rfl
          · exact hagain h
          · exact ⟨r, _, hr, hnext⟩
        dsimp only
        generalize hx : b.add row again = x
        generalize hy : b'.add row again = y
        have hadd := hb.add row again hagain'
        rw [hx, hy] at hadd
        cases hadd with
        | ok h =>
          dsimp only
          split
          · exact ih (hr.row hnext) (h.1.enlarge _ _) h.2
          · exact ih (hr.row hnext) h.1 h.2
        | error e => exact .error e
        | left h => exact .left h _
        | right h => exact .right h _

theorem gatherFromHere_alike (limit : Nat) (hr : start.Leads d r) (hb : b.Alike b')
    (hagain : b.again = true → start.ReadsAgain d) :
    AlikeUnless (start.ReadsAgain d) (GatherAlike d start) (gatherFromHere d limit r b)
      (gatherFromHere d limit r b') :=
  gather_alike limit hr.markHere (hb.enlarge _ _) hagain

theorem AlikeUnless.batchesFrom {x y : Except ReadError (Reader × Batch)}
    {later : Reader → Room → List (Except ReadError (List Row))}
    (h : AlikeUnless (start.ReadsAgain d) (GatherAlike d start) x y)
    (hlater : ∀ r, start.Leads d r → ∀ room room',
      SameUnless (start.ReadsAgain d) (later r room) (later r room')) :
    SameUnless (start.ReadsAgain d) (batchesFrom later x) (batchesFrom later y) := by
  cases h with
  | error e => exact .same _
  | left h => exact .left h _
  | right h => exact .right h _
  | @ok x y h =>
    rw [Csv.batchesFrom, Csv.batchesFrom, ← h.batch.rows, ← h.reader]
    split
    · exact .same _
    · exact .cons _ (hlater _ h.leads _ _)

theorem laterBatches_alike (size bound : Nat) (hr : start.Leads d r) (room room' : Room) :
    SameUnless (start.ReadsAgain d) (laterBatches d size bound r room)
      (laterBatches d size bound r room') := by
  induction bound generalizing r room room' with
  | zero => exact .same _
  | succ bound ih =>
    rw [laterBatches_succ, laterBatches_succ]
    have hx := gatherFromHere_alike size hr (Batch.alike_of_room room room') (by simp)
    exact hx.batchesFrom fun r hr room room' => ih hr room room'

def batchesOfReader (d : Char) (size : Nat) (r : Reader) (room : Room) :
    List (Except ReadError (List Row)) :=
  batchesFrom (fun r => laterBatches d size (r.place.rest.length + 1) r)
    (gather d 1 r { room := room } >>= fun x => gatherFromHere d (size - 1) x.1 x.2)

theorem batchesOfReader_alike (d : Char) (size : Nat) (r : Reader) (room room' : Room) :
    SameUnless (r.ReadsAgain d) (batchesOfReader d size r room) (batchesOfReader d size r room') := by
  have hfirst := gather_alike 1 (.refl : r.Leads d r) (Batch.alike_of_room room room') (by simp)
  have hx := hfirst.bind (f := fun x => gatherFromHere d (size - 1) x.1 x.2)
    (g := fun x => gatherFromHere d (size - 1) x.1 x.2) fun x y hxy => by
      rw [← hxy.reader]
      exact gatherFromHere_alike (size - 1) hxy.leads hxy.batch hxy.again
  exact hx.batchesFrom fun r hr room room' => laterBatches_alike size _ hr room room'

end Gather

theorem SameUnless.imp {p q : Prop} {batches batches' : List (Except ReadError (List Row))}
    (h : SameUnless p batches batches') (hpq : p → q) : SameUnless q batches batches' := by
  induction h with
  | same => exact .same _
  | left h => exact .left (hpq h) _
  | right h => exact .right (hpq h) _
  | cons rows _ ih => exact .cons rows ih

theorem SameUnless.mapM {exception : Prop} {f : Except ReadError (List Row) → Except ReadError Frame}
    (hf : f malformed = malformed) {batches batches' : List (Except ReadError (List Row))}
    (h : SameUnless exception batches batches') :
    batches.mapM f = batches'.mapM f ∨
      exception ∧ (batches.mapM f = malformed ∨ batches'.mapM f = malformed) := by
  have hone : [malformed].mapM f = malformed := by
    rw [List.mapM_cons, hf]
    rfl
  induction h with
  | same => exact .inl rfl
  | left h => exact .inr ⟨h, .inl hone⟩
  | right h => exact .inr ⟨h, .inr hone⟩
  | cons rows _ ih =>
    rw [List.mapM_cons, List.mapM_cons]
    cases f (.ok rows) with
    | error e => exact .inl rfl
    | ok frame =>
      rcases ih with heq | ⟨h, heq | heq⟩
      · exact .inl (by rw [heq])
      · exact .inr ⟨h, .inl (by rw [heq]; rfl)⟩
      · exact .inr ⟨h, .inr (by rw [heq]; rfl)⟩

theorem SameUnless.readBatches {exception : Prop} {g : Grammar} {schema expected : Schema}
    {batches batches' : List (Except ReadError (List Row))}
    (h : SameUnless exception batches batches') :
    readBatches g schema expected batches = readBatches g schema expected batches' ∨
      exception ∧ (readBatches g schema expected batches = malformed ∨
        readBatches g schema expected batches' = malformed) := by
  cases h with
  | same => exact .inl rfl
  | left h => exact .inr ⟨h, .inl rfl⟩
  | right h => exact .inr ⟨h, .inr rfl⟩
  | @cons rows batches batches' h =>
    -- the first batch says how many columns there are
    have hwidth : fileWidth (.ok rows :: batches) = fileWidth (.ok rows :: batches') := by
      cases rows <;> rfl
    rw [Csv.readBatches, Csv.readBatches, hwidth]
    refine SameUnless.mapM ?_ (.cons rows h)
    rfl

end QueryPlan.Csv
