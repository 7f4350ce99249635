import QueryPlan.Proofs.Csv.Joining
import QueryPlan.Proofs.Csv.Room
/-!
# Readers of texts with a common beginning

A reader does not look beyond the row it reads, but for one character after a carriage return. So two
texts of the same length that begin alike, up to the end of a line, are read alike as long as their
rows lie in that beginning. A text of line feeds has no rows, so it shows what is read of the text
before it whatever follows.
-/
namespace QueryPlan.Csv

/-- Two places with the same text in front of `u` and `u'`, and as much left of their blocks. -/
structure Place.Shares (u u' w : List Char) (p p' : Place) : Prop where
  rest : p.rest = w ++ u
  rest' : p'.rest = w ++ u'
  left : p.left = p'.left

def Place.SharesFrom (u u' : List Char) (n : Nat) (p p' : Place) : Prop :=
  ∃ w, LineEnded w ∧ n ≤ w.length ∧ p.Shares u u' w p'

/-- Ahead of two readers lies the same text, in front of `u` and `u'`, and their marks are not behind
it. The text ends with the end of a line, and nothing but line feeds follows it on the one side. -/
structure Ahead (d : Char) (u u' w : List Char) (mark mark' : Place) : Prop where
  delimiter : d ≠ '\n' ∧ d ≠ '\r'
  length : u.length = u'.length
  feeds : ∀ c ∈ u', c = '\n'
  lineEnded : LineEnded w
  mark : mark.SharesFrom u u' w.length mark'

structure Reader.Shares (d : Char) (u u' w : List Char) (r r' : Reader) : Prop where
  ahead : Ahead d u u' w r.mark r'.mark
  place : r.place.Shares u u' w r'.place
  before : r.before = r'.before
  emptyCell : r'.before = .emptyCell → w ≠ []

/-- What is found in front of `u`, as far as what is found in front of `u'` tells: the same row, and
after it the readers have the same text ahead, unless no row is left in front of `u'`. -/
inductive Found.Shares (d : Char) (u u' : List Char) : Found → Found → Prop where
  | unterminated (found : Found) : Shares d u u' found .unterminated
  | row (row : Row) {w : List Char} {next next' : Reader} (h : next.Shares d u u' w next') :
    Shares d u u' (.row row next) (.row row next')
  | last (row : Row) (next : Reader) {next' : Reader} (hfeeds : ∀ c ∈ next'.place.rest, c = '\n')
    (hbefore : next'.before ≠ .emptyCell) : Shares d u u' (.row row next) (.row row next')

section Places
variable {u u' w : List Char}

theorem Place.left_of_append (hlength : u.length = u'.length) (left : Nat) :
    (Place.of (w ++ u) left).left = (Place.of (w ++ u') left).left := by
  unfold Place.of
  split
  · simp [blockStart, hlength]
  · rfl

theorem Place.shares_of (hlength : u.length = u'.length) (left : Nat) :
    (Place.of (w ++ u) left).Shares u u' w (Place.of (w ++ u') left) :=
  ⟨rest_of, rest_of, left_of_append hlength left⟩

theorem Place.SharesFrom.mono {m n : Nat} {p p' : Place} (h : p.SharesFrom u u' n p')
    (hl : m ≤ n) : p.SharesFrom u u' m p' := by
  obtain ⟨w, hw, hn, hs⟩ := h
  exact ⟨w, hw, Nat.le_trans hl hn, hs⟩

theorem Place.SharesFrom.of_block {mark mark' : Place} (h : mark.SharesFrom u u' w.length mark')
    (hw : LineEnded w) (hlength : u.length = u'.length) (left : Nat) :
    Place.SharesFrom u u' w.length (if left = 0 then Place.of (w ++ u) left else mark)
      (if left = 0 then Place.of (w ++ u') left else mark') := by
  split
  · exact ⟨w, hw, Nat.le_refl _, shares_of hlength left⟩
  · exact h

end Places

theorem readCells_quoted_feeds {d : Char} {cell cs : List Char} {cells : Row} {mark : Place}
    {left : Nat} (h : ∀ c ∈ cs, c = '\n') :
    readCells d mark .quoted cell cells left cs = .unterminated := by
  induction cs generalizing cell mark left with
  | nil => rfl
  | cons c cs ih =>
    obtain ⟨rfl, hcs⟩ := List.forall_mem_cons.1 h
    rw [readCells]
    exact ih hcs

section Cells
variable {d c : Char} {u u' w cs cell : List Char} {cells : Row} {mark mark' : Place} {left : Nat}

theorem Ahead.tail (h : Ahead d u u' (c :: cs) mark mark') (left : Nat) :
    Ahead d u u' cs (if left = 0 then Place.of (c :: (cs ++ u)) left else mark)
      (if left = 0 then Place.of (c :: (cs ++ u')) left else mark') :=
  { h with
    lineEnded := h.lineEnded.tail
    mark := (h.mark.of_block h.lineEnded h.length left).mono (Nat.le_succ _) }

theorem Ahead.tail_here (h : Ahead d u u' (c :: cs) mark mark') (left : Nat) :
    Ahead d u u' cs ⟨cs ++ u, left⟩ ⟨cs ++ u', left⟩ :=
  { h with
    lineEnded := h.lineEnded.tail
    mark := ⟨cs, h.lineEnded.tail, Nat.le_refl _, rfl, rfl, rfl⟩ }

theorem Ahead.shares (h : Ahead d u u' w mark mark') (left : Nat) (before : Before)
    (hcell : before = .emptyCell → w ≠ []) :
    Reader.Shares d u u' w ⟨⟨w ++ u, left⟩, mark, before⟩ ⟨⟨w ++ u', left⟩, mark', before⟩ :=
  ⟨h, ⟨rfl, rfl, rfl⟩, rfl, hcell⟩

/-- After a carriage return one more character is looked at. -/
theorem readCells_return_shares (h : Ahead d u u' w mark mark') :
    (readCells d mark .rowReturn cell cells left (w ++ u)).Shares d u u'
      (readCells d mark' .rowReturn cell cells left (w ++ u')) := by
  cases w with
  | nil =>
    -- what follows the carriage return is not shared, and no row is left in front of `u'`
    cases u' with
    | nil =>
      have hu : u = [] := List.length_eq_zero_iff.1 h.length
      subst hu
      exact .last _ _ (by simp [Place.finish]) (by simp)
    | cons c' cs' =>
      cases u with
      | nil => cases h.length
      | cons c cs =>
        obtain ⟨rfl, hcs'⟩ := List.forall_mem_cons.1 h.feeds
        exact .last _ _ (by simpa using hcs') (by simp)
  | cons c cs =>
    have hleft := Place.left_of_append (w := c :: cs) h.length left
    have hrest : (Place.of (c :: (cs ++ u)) left).Shares u u' (c :: cs)
        (Place.of (c :: (cs ++ u')) left) := Place.shares_of h.length left
    rw [List.cons_append, List.cons_append] at hleft ⊢
    rw [readCells, readCells, hleft]
    by_cases hn : c = '\n'
    · rw [if_pos hn, if_pos hn]
      exact .row _ ((h.tail_here _).shares _ _ (by simp))
    · rw [if_neg hn, if_neg hn]
      by_cases hd : c = d
      · rw [if_pos hd, if_pos hd]
        have hne := h.lineEnded.ne_nil (c := c) (by rw [hd]; exact not_or.2 h.delimiter)
        exact .row _ ((h.tail left).shares _ _ fun _ => hne)
      · rw [if_neg hd, if_neg hd]
        exact .row _ ⟨{ h with mark := h.mark.of_block h.lineEnded h.length left }, hrest, rfl, by simp⟩

/-- A row that begins in a text that ends with the end of a line lies in that text, unless its quotes
are not closed there. -/
theorem readCells_shares {mode : Mode} (h : Ahead d u u' w mark mark') (hne : w ≠ [])
    (hm : mode ≠ .rowReturn) :
    (readCells d mark mode cell cells left (w ++ u)).Shares d u u'
      (readCells d mark' mode cell cells left (w ++ u')) := by
  induction w generalizing mode cell cells mark mark' left with
  | nil => exact absurd rfl hne
  | cons c cs ih =>
    have hleft := Place.left_of_append (w := c :: cs) h.length left
    rw [List.cons_append, List.cons_append] at hleft ⊢
    by_cases hq : mode = .quoted
    · subst hq
      rw [readCells, readCells, hleft]
      by_cases hc : c = '"'
      · rw [if_pos hc, if_pos hc]
        exact ih (h.tail left) (h.lineEnded.ne_nil (by simp [hc])) (by decide)
      · rw [if_neg hc, if_neg hc]
        by_cases hnil : cs = []
        · subst hnil
          rw [List.nil_append, List.nil_append, readCells_quoted_feeds h.feeds]
          exact .unterminated _
        · by_cases hn : c = '\n'
          · rw [if_pos hn, if_pos hn]
            exact ih (h.tail_here _) hnil (by decide)
          · rw [if_neg hn, if_neg hn]
            exact ih (h.tail left) hnil (by decide)
    · rw [readCells_unquoted _ _ hq hm, readCells_unquoted _ _ hq hm]
      dsimp only
      rw [hleft]
      by_cases hn : c = '\n'
      · rw [if_pos hn, if_pos hn]
        exact .row _ ((h.tail_here _).shares _ _ (by simp))
      · rw [if_neg hn, if_neg hn]
        by_cases hr : c = '\r'
        · rw [if_pos hr, if_pos hr]
          exact readCells_return_shares (h.tail left)
        · rw [if_neg hr, if_neg hr]
          -- the line goes on, so this is not the last character that is shared
          have hnil := h.lineEnded.ne_nil (not_or.2 ⟨hn, hr⟩)
          split
          · exact ih (h.tail left) hnil (by decide)
          · split
            · exact ih (h.tail left) hnil (by decide)
            · split
              · exact ih (h.tail left) hnil (by decide)
              · exact ih (h.tail left) hnil (by decide)

end Cells

structure Opening.Shares (d : Char) (u u' : List Char) (o o' : Opening) : Prop where
  place : ∃ w, w ≠ [] ∧ o.place.Shares u u' w o'.place ∧ Ahead d u u' w o.mark o'.mark
  mode : o.mode = o'.mode
  notReturn : o'.mode ≠ .rowReturn
  cell : o.cell = o'.cell
  again : o.again = o'.again

section Lines
variable {d : Char} {u u' w blanks : List Char} {mark mark' : Place} {returned : Bool} {left : Nat}

theorem skipLines_feeds {cs : List Char} (h : ∀ c ∈ cs, c = '\n') :
    skipLines d mark blanks returned left cs = none := by
  induction cs generalizing mark blanks returned left with
  | nil => rfl
  | cons c cs ih =>
    obtain ⟨rfl, hcs⟩ := List.forall_mem_cons.1 h
    rw [skipLines]
    exact ih hcs

/-- Where a row begins whose first character is at hand, behind the blanks of its line. -/
def rowBegins (here mark : Place) (blanks : List Char) : Option Opening :=
  if blanks.isEmpty then some ⟨here, mark, .cellStart, [], false⟩
  else if mark.left = here.left + blanks.length then some ⟨here, mark, .plain, blanks, false⟩
  else some ⟨mark, mark, .cellStart, [], true⟩

theorem Ahead.rowBegins (h : Ahead d u u' w mark mark') (hne : w ≠ []) {here here' : Place}
    (hhere : here.Shares u u' w here') {o' : Opening}
    (ho' : rowBegins here' mark' blanks = some o') :
    ∃ o, rowBegins here mark blanks = some o ∧ o.Shares d u u' o' := by
  obtain ⟨v, hv, hlength, hmark⟩ := h.mark
  unfold Csv.rowBegins at ho' ⊢
  by_cases hempty : blanks.isEmpty = true
  · rw [if_pos hempty] at ho' ⊢
    cases ho'
    exact ⟨_, rfl, ⟨w, hne, hhere, h⟩, rfl, by simp, rfl, rfl⟩
  rw [if_neg hempty, ← hmark.left, ← hhere.left] at ho'
  rw [if_neg hempty]
  by_cases hkept : mark.left = here.left + blanks.length
  · rw [if_pos hkept] at ho' ⊢
    cases ho'
    exact ⟨_, rfl, ⟨w, hne, hhere, h⟩, rfl, by simp, rfl, rfl⟩
  · rw [if_neg hkept] at ho' ⊢
    cases ho'
    -- the row is read from the mark on, which does not lie behind it
    have hmarked : Ahead d u u' v mark mark' :=
      { h with lineEnded := hv, mark := ⟨v, hv, Nat.le_refl _, hmark⟩ }
    have hpos := Nat.lt_of_lt_of_le (List.length_pos_iff.2 hne) hlength
    exact ⟨_, rfl, ⟨v, List.ne_nil_of_length_pos hpos, hmark, hmarked⟩, rfl, by simp, rfl, rfl⟩

theorem skipLines_shares (h : Ahead d u u' w mark mark') {o' : Opening}
    (ho' : skipLines d mark' blanks returned left (w ++ u') = some o') :
    ∃ o, skipLines d mark blanks returned left (w ++ u) = some o ∧ o.Shares d u u' o' := by
  induction w generalizing mark mark' blanks returned left with
  | nil =>
    rw [List.nil_append, skipLines_feeds h.feeds] at ho'
    cases ho'
  | cons c cs ih =>
    have hleft := Place.left_of_append (w := c :: cs) h.length left
    have hrest : (Place.of (c :: (cs ++ u)) left).Shares u u' (c :: cs)
        (Place.of (c :: (cs ++ u')) left) := Place.shares_of h.length left
    rw [List.cons_append] at ho' ⊢
    rw [List.cons_append, List.cons_append] at hleft
    rw [skipLines_cons] at ho' ⊢
    dsimp only at ho' ⊢
    by_cases hn : c = '\n'
    · rw [if_pos hn, ← hleft] at ho'
      rw [if_pos hn]
      exact ih (h.tail_here _) ho'
    by_cases hd : returned = true ∧ c = d
    · rw [if_neg hn, if_pos hd, ← hleft] at ho'
      rw [if_neg hn, if_pos hd]
      exact ih (h.tail left) ho'
    by_cases hr : c = '\r'
    · rw [if_neg hn, if_neg hd, if_pos hr, ← hleft] at ho'
      rw [if_neg hn, if_neg hd, if_pos hr]
      exact ih (h.tail left) ho'
    rw [if_neg hn, if_neg hd, if_neg hr] at ho' ⊢
    by_cases hb : isBlank d c = true
    · rw [if_pos hb, ← hleft] at ho'
      rw [if_pos hb]
      exact ih (h.tail left) ho'
    · rw [if_neg hb] at ho' ⊢
      have hahead := { h with mark := h.mark.of_block h.lineEnded h.length left }
      exact Ahead.rowBegins hahead (by simp) hrest ho'

end Lines

section Next
variable {d : Char} {u u' w : List Char} {r r' : Reader} {rs : List (Option Row)}

theorem Reader.next_feeds (hbefore : r.before ≠ .emptyCell) (h : ∀ c ∈ r.place.rest, c = '\n') :
    r.next d = none := by
  rw [next, if_neg hbefore, skipLines_feeds h]
  rfl

theorem Reader.Shares.found (h : r.Shares d u u' w r') {again : Bool} {found' : Found}
    (hn : r'.next d = some (again, found')) :
    ∃ found, r.next d = some (again, found) ∧ found.Shares d u u' found' := by
  obtain ⟨hahead, hplace, hbefore, hcell⟩ := h
  unfold next at hn ⊢
  by_cases hb : r'.before = .emptyCell
  · rw [if_pos hb, hplace.rest'] at hn
    cases hn
    rw [if_pos (hbefore.trans hb), hplace.rest, hplace.left]
    exact ⟨_, rfl, readCells_shares hahead (hcell hb) (by decide)⟩
  · rw [if_neg hb, hplace.rest'] at hn
    obtain ⟨o', ho', heq⟩ := Option.map_eq_some_iff.1 hn
    cases heq
    obtain ⟨o, ho, ⟨v, hne, hp, ha⟩, hmode, hm, hc, hag⟩ := skipLines_shares hahead ho'
    rw [if_neg (hbefore ▸ hb), hplace.rest, hplace.left, hbefore, ho, Option.map_some, hag, hmode, hc,
      hp.rest, hp.rest', hp.left]
    exact ⟨_, rfl, readCells_shares ha hne hm⟩

/-- Where the one reader stands for a record, both find it. After it they have the same text ahead, or
no record is left. -/
theorem Reader.Shares.next (h : r.Shares d u u' w r') {row : Row}
    (hs : r'.StandsFor d (some row :: rs)) : ∃ next next',
      r.next d = some (false, .row row next) ∧ r'.next d = some (false, .row row next') ∧
        next'.StandsFor d rs ∧ ((∃ w, next.Shares d u u' w next') ∨ rs = []) := by
  obtain ⟨-, hnil⟩ | ⟨found', hn, -, hreads⟩ := hs.next
  · cases hnil
  · obtain ⟨found, hfound, hshares⟩ := h.found hn
    cases hshares with
    | unterminated => cases hreads
    | row cells hnext =>
      obtain ⟨rest, hrest, -, heq⟩ := hreads
      cases heq
      exact ⟨_, _, hfound, hn, hrest, .inl ⟨_, hnext⟩⟩
    | last cells next hfeeds hbefore =>
      obtain ⟨rest, hrest, -, heq⟩ := hreads
      cases heq
      refine ⟨_, _, hfound, hn, hrest, .inr ?_⟩
      obtain ⟨-, hnil⟩ | ⟨_, hsome, -⟩ := hrest.next
      · exact hnil
      · rw [Reader.next_feeds hbefore hfeeds] at hsome
        cases hsome

theorem Reader.Shares.markHere (h : r.Shares d u u' w r') :
    r.markHere.Shares d u u' w r'.markHere := by
  obtain ⟨hahead, hplace, hbefore, hcell⟩ := h
  have hhere : (Place.of r.place.rest r.place.left).Shares u u' w
      (Place.of r'.place.rest r'.place.left) := by
    rw [hplace.rest, hplace.rest', hplace.left]
    exact Place.shares_of hahead.length _
  exact ⟨{ hahead with mark := ⟨w, hahead.lineEnded, Nat.le_refl _, hhere⟩ }, hhere, hbefore, hcell⟩

end Next

section Batches
variable {d : Char} {u u' w : List Char} {r r' : Reader} {rs : List (Option Row)}

/-- What gathering rows comes to for two readers, as long as the one finds records: the same fault, or
the same rows. After them both have the same text ahead, unless no record is left. Their room differs,
which does not matter as long as no row is read again. -/
inductive GatherShares (d : Char) (u u' : List Char) (rs : List (Option Row)) :
    Except ReadError (Reader × Batch) → Except ReadError (Reader × Batch) → Prop where
  | error (e : ReadError) : GatherShares d u u' rs (.error e) (.error e)
  | shared {w : List Char} {r r' : Reader} {b b' : Batch} (h : r.Shares d u u' w r')
    (hb : b.Alike b') (hagain : b.again = false) (hs : r'.StandsFor d rs) :
    GatherShares d u u' rs (.ok (r, b)) (.ok (r', b'))
  | last (r : Reader) {r' : Reader} {b b' : Batch} (hrows : b.rows = b'.rows)
    (hs : r'.StandsFor d []) (hnil : rs = []) : GatherShares d u u' rs (.ok (r, b)) (.ok (r', b'))

theorem gather_shares (limit : Nat) (h : r.Shares d u u' w r') (hs : r'.StandsFor d rs)
    (hclosed : none ∉ rs) (hl : limit ≤ rs.length) {b b' : Batch} (hb : b.Alike b')
    (hagain : b.again = false) :
    GatherShares d u u' (rs.drop limit) (gather d limit r b) (gather d limit r' b') := by
  induction limit generalizing r r' rs b b' w with
  | zero => exact .shared h hb hagain hs
  | succ limit ih =>
    cases rs with
    | nil => simp at hl
    | cons x rs =>
      cases x with
      | none => simp at hclosed
      | some row =>
        obtain ⟨next, next', hn, hn', hrest, hnext⟩ := h.next hs
        rw [gather, gather, hn, hn']
        dsimp only
        have hadd : AlikeUnless False (fun x y => x.Alike y ∧ (x.again = true → False))
            (b.add row false) (b'.add row false) := hb.add row false (by simp [hagain])
        generalize b.add row false = x at hadd
        generalize b'.add row false = y at hadd
        cases hadd with
        | error e => exact .error e
        | left h => exact h.elim
        | right h => exact h.elim
        | @ok b b' hb =>
          have hagain : b.again = false := by simpa using hb.2
          have hclosed : none ∉ rs := fun hm => hclosed (List.mem_cons_of_mem _ hm)
          have hl : limit ≤ rs.length := Nat.le_of_succ_le_succ hl
          rw [List.drop_succ_cons]
          rcases hnext with ⟨v, hshares⟩ | hnil
          · dsimp only
            rw [h.place.left, hshares.place.left]
            split
            · exact ih hshares hrest hclosed hl (hb.1.enlarge _ _) hagain
            · exact ih hshares hrest hclosed hl hb.1 hagain
          · subst hnil
            have hzero : limit = 0 := Nat.le_zero.1 hl
            subst hzero
            refine .last _ ?_ hrest rfl
            split <;> split <;> exact hb.1.rows

theorem gatherFromHere_shares (limit : Nat) (h : r.Shares d u u' w r') (hs : r'.StandsFor d rs)
    (hclosed : none ∉ rs) (hl : limit ≤ rs.length) {b b' : Batch} (hb : b.Alike b')
    (hagain : b.again = false) :
    GatherShares d u u' (rs.drop limit) (gatherFromHere d limit r b)
      (gatherFromHere d limit r' b') :=
  gather_shares limit h.markHere hs.markHere hclosed hl (hb.enlarge _ _) hagain

theorem gather_first_shares {size : Nat} (hsize : 0 < size) (h : r.Shares d u u' w r')
    (hs : r'.StandsFor d rs) (hclosed : none ∉ rs) (hl : size ≤ rs.length) {b b' : Batch}
    (hb : b.Alike b') (hagain : b.again = false) :
    GatherShares d u u' (rs.drop size)
      (gather d 1 r b >>= fun x => gatherFromHere d (size - 1) x.1 x.2)
      (gather d 1 r' b' >>= fun x => gatherFromHere d (size - 1) x.1 x.2) := by
  obtain ⟨n, rfl⟩ : ∃ n, size = 1 + n := ⟨size - 1, by omega⟩
  rw [Nat.add_sub_cancel_left, ← List.drop_drop]
  have hfirst := gather_shares 1 h hs hclosed (Nat.le_of_add_right_le hl) hb hagain
  generalize gather d 1 r b = x at hfirst
  generalize gather d 1 r' b' = x' at hfirst
  cases hfirst with
  | error e => exact .error e
  | shared h hb hagain hs =>
    refine gatherFromHere_shares n h hs (fun hm => hclosed (List.mem_of_mem_drop hm)) ?_ hb hagain
    rw [List.length_drop]
    omega
  | last r hrows hs hnil =>
    -- that was the last record, so that no more of them are gathered
    have hlength : rs.length - 1 = 0 := by rw [← List.length_drop, hnil, List.length_nil]
    have hn : n = 0 := by omega
    subst hn
    exact .last _ hrows hs.markHere (by rw [hnil, List.drop_nil])

theorem laterBatches_of_nil (hs : r.StandsFor d []) (size bound : Nat) (room : Room) :
    laterBatches d size bound r room = [] := by
  cases bound with
  | zero => rfl
  | succ bound =>
    have hgather : gatherFromHere d size r { room := room } =
        .ok (r.markHere, Batch.enlarge { room := room } r.markHere.place.bytes) := by
      rw [gatherFromHere]
      cases size with
      | zero => rfl
      | succ size =>
        obtain ⟨hn, -⟩ | ⟨found, _, _, hreads⟩ := hs.markHere.next
        · rw [gather, hn]
        · cases found with
          | unterminated => cases hreads
          | row row next =>
            obtain ⟨_, _, _, hcons⟩ := hreads
            cases hcons
    rw [laterBatches, hgather]
    rfl

theorem GatherShares.isPrefix_batchesFrom {x x' : Except ReadError (Reader × Batch)}
    (h : GatherShares d u u' rs x x') {later : Reader → Room → List (Except ReadError (List Row))}
    (hlater : ∀ {w r r'} room room', Reader.Shares d u u' w r r' → r'.StandsFor d rs →
      later r' room' <+: later r room)
    (hnil : ∀ {r'} room, Reader.StandsFor d r' [] → later r' room = []) :
    batchesFrom later x' <+: batchesFrom later x := by
  cases h with
  | error e => exact List.prefix_rfl
  | shared h hb hagain hs =>
    rw [batchesFrom, batchesFrom, hb.rows]
    split
    · exact List.prefix_rfl
    · exact (List.prefix_cons_inj _).2 (hlater _ _ h hs)
  | last r hrows hs =>
    rw [batchesFrom, batchesFrom, hrows]
    split
    · exact List.prefix_rfl
    · rw [hnil _ hs]
      exact (List.prefix_cons_inj _).2 List.nil_prefix

theorem laterBatches_shares {size : Nat} (bound : Nat)
    (h : r.Shares d u u' w r') (hs : r'.StandsFor d rs) (hclosed : none ∉ rs)
    (hdvd : size ∣ rs.length) (room room' : Room) :
    laterBatches d size bound r' room' <+: laterBatches d size bound r room := by
  induction bound generalizing r r' rs room room' w with
  | zero => exact List.prefix_rfl
  | succ bound ih =>
    by_cases hrs : rs = []
    · rw [laterBatches_of_nil (hrs ▸ hs)]
      exact List.nil_prefix
    · have hle := Nat.le_of_dvd (List.length_pos_iff.2 hrs) hdvd
      have hrest : size ∣ (rs.drop size).length := by
        rw [List.length_drop]
        exact Nat.dvd_sub hdvd (Nat.dvd_refl size)
      rw [laterBatches_succ, laterBatches_succ]
      have hgathered := gatherFromHere_shares size h hs hclosed hle (Batch.alike_of_room room room') rfl
      exact hgathered.isPrefix_batchesFrom
        (fun room room' h hs =>
          ih h hs (fun hm => hclosed (List.mem_of_mem_drop hm)) hrest room room')
        (fun room hs => laterBatches_of_nil hs size bound room)

/-- In front of line feeds a text has no more batches than in front of any other text. -/
theorem batchesOfText_shares {size : Nat} (hs : 0 < size)
    (hahead : Ahead d u u' w (Place.blockStart (w ++ u)) (Place.blockStart (w ++ u')))
    (hstands : (Reader.ofPlace (Place.blockStart (w ++ u'))).StandsFor d rs)
    (hclosed : none ∉ rs) (hdvd : size ∣ rs.length) (hrs : rs ≠ []) :
    batchesOfText d size false (w ++ u') <+: batchesOfText d size false (w ++ u) := by
  have hle := Nat.le_of_dvd (List.length_pos_iff.2 hrs) hdvd
  have hplace : (Place.blockStart (w ++ u)).Shares u u' w (Place.blockStart (w ++ u')) := by
    rw [← of_zero, ← of_zero]
    exact Place.shares_of hahead.length _
  have hr : (Reader.ofPlace (Place.blockStart (w ++ u))).Shares d u u' w
      (Reader.ofPlace (Place.blockStart (w ++ u'))) :=
    ⟨hahead, hplace, rfl, by simp [Reader.ofPlace]⟩
  have hrest : size ∣ (rs.drop size).length := by
    rw [List.length_drop]
    exact Nat.dvd_sub hdvd (Nat.dvd_refl size)
  have hroom := (Batch.alike_of_room .initial .initial).enlarge (Place.blockStart (w ++ u)).bytes
    (Place.blockStart (w ++ u')).bytes
  have hgathered := gather_first_shares hs hr hstands hclosed hle hroom rfl
  rw [batchesOfText_eq_batchesFrom, batchesOfText_eq_batchesFrom]
  refine hgathered.isPrefix_batchesFrom (fun {_ r r'} room room' h hs => ?_)
    fun room hs => laterBatches_of_nil hs _ _ room
  have hlength : r.place.rest.length = r'.place.rest.length := by
    rw [h.place.rest, h.place.rest', List.length_append, List.length_append, h.ahead.length]
  rw [hlength]
  exact laterBatches_shares _ h hs (fun hm => hclosed (List.mem_of_mem_drop hm)) hrest room room'

end Batches

section Feeds
variable {d : Char} {cs feeds : List Char} {left : Nat} {phase : Phase}

theorem Phase.step_feed (d : Char) (first last : Bool) (phase : Phase) :
    ∃ p, phase.step d first last '\n' = some p := by
  cases phase with
  | header | line | blank => exact ⟨_, rfl⟩
  | record inHeader mode =>
    rw [step]
    split
    · exact ⟨_, rfl⟩
    · exact ⟨_, rfl⟩

theorem isSteady_feeds (h : ∀ c ∈ feeds, c = '\n') : isSteady d phase left feeds = true := by
  induction feeds generalizing phase left with
  | nil => rfl
  | cons c cs ih =>
    obtain ⟨rfl, hcs⟩ := List.forall_mem_cons.1 h
    obtain ⟨p, hp⟩ := phase.step_feed d (left = 0) ((Place.of ('\n' :: cs) left).left = 1)
    exact isSteady_of_step hp (ih hcs)

theorem Phase.step_lineEnd {c : Char} (hc : c = '\n' ∨ c = '\r') (first last last' : Bool) :
    phase.step d first last c = phase.step d first last' c := by
  have hb : isBlank d c = false := by
    rcases hc with rfl | rfl <;> rfl
  cases phase with
  | header | record => rfl
  | line | blank => simp [step, hb]

/-- A text that ends with the end of a line stays steady when line feeds follow it. Then less may be
left of a block than the text and the line feeds take, but not less than the text takes. -/
theorem isSteady_append_feeds (hend : LineEnded cs) (hfeeds : ∀ c ∈ feeds, c = '\n')
    (h : isSteady d phase (min cs.length left) cs = true) :
    isSteady d phase left (cs ++ feeds) = true := by
  induction cs generalizing phase left with
  | nil => exact isSteady_feeds hfeeds
  | cons c cs ih =>
    obtain ⟨p, hp, ht⟩ := isSteady_cons h
    have hhere : (Place.of (c :: cs) (min (c :: cs).length left)).left =
        min (c :: cs).length (Place.of (c :: (cs ++ feeds)) left).left := by
      by_cases hl : left = 0
      · simp only [hl, Nat.min_zero, of_zero, Place.blockStart, List.length_take, List.length_cons,
          List.length_append]
        omega
      · rw [Place.of_pos (Nat.pos_of_ne_zero hl), Place.of_pos (by simp; omega)]
    have hpos : 0 < (Place.of (c :: (cs ++ feeds)) left).left := left_of_pos
    rw [hhere] at hp ht
    have hfirst : min (c :: cs).length left = 0 ↔ left = 0 := by
      rw [List.length_cons]
      omega
    simp only [hfirst] at hp
    rw [List.cons_append]
    apply isSteady_of_step (p := p)
    · by_cases hcs : cs = []
      · rw [← hp]
        exact Phase.step_lineEnd (hend c (by rw [hcs]; rfl)) _ _ _
      · have hlength : 0 < cs.length := List.length_pos_iff.2 hcs
        have hlast : min (c :: cs).length (Place.of (c :: (cs ++ feeds)) left).left = 1 ↔
            (Place.of (c :: (cs ++ feeds)) left).left = 1 := by
          rw [List.length_cons]
          omega
        simpa only [hlast] using hp
    · apply ih hend.tail
      rw [List.length_cons] at ht
      rwa [← Nat.sub_min_sub_right, Nat.add_sub_cancel] at ht

theorem records_feeds (h : ∀ c ∈ feeds, c = '\n') : records d none [] [] feeds = [] := by
  induction feeds with
  | nil => rfl
  | cons c cs ih =>
    obtain ⟨rfl, hcs⟩ := List.forall_mem_cons.1 h
    rw [records_line [] (.inl rfl)]
    exact ih hcs

end Feeds

/-- A steady text that ends with the end of a line, and whose records are closed and fill their
batches, begins with the same batches whatever follows it. -/
theorem isPrefix_batchesOfText {d : Char} {size : Nat} {cs : List Char} (hs : 0 < size)
    (hd : d ≠ '\n' ∧ d ≠ '\r') (hend : LineEnded cs) (hclosed : none ∉ records d none [] [] cs)
    (hdvd : size ∣ (records d none [] [] cs).length) (h : isSteadyText d false cs = true)
    (rest : List Char) :
    batchesOfText d size false cs <+: batchesOfText d size false (cs ++ rest) := by
  have hfeeds : ∀ c ∈ List.replicate rest.length '\n', c = '\n' := fun c => List.eq_of_mem_replicate
  generalize hgen : List.replicate rest.length '\n' = feeds at hfeeds
  have hlength : rest.length = feeds.length := by rw [← hgen, List.length_replicate]
  -- in front of line feeds the batches are those of the text alone
  have hsteady : isSteadyText d false (cs ++ feeds) = true := by
    apply isSteady_append_feeds hend hfeeds
    rwa [Nat.min_zero]
  have hrecords : recordsOf d false (cs ++ feeds) = records d none [] [] cs := by
    change records d none [] [] (cs ++ feeds) = _
    rw [records_append hend hclosed, records_feeds hfeeds, List.append_nil]
  have hbatches : batchesOfText d size false cs = batchesOfText d size false (cs ++ feeds) := by
    rw [batchesOfText_eq hs false h, batchesOfText_eq hs false hsteady, hrecords]
    rfl
  by_cases hrs : records d none [] [] cs = []
  · rw [batchesOfText_eq hs false h, show recordsOf d false cs = [] from hrs]
    exact List.nil_prefix
  · have hstands := start_standsFor hsteady
    rw [hrecords] at hstands
    rw [hbatches]
    refine batchesOfText_shares hs ⟨hd, hlength, hfeeds, hend, cs, hend, Nat.le_refl _, ?_⟩ hstands
      hclosed hdvd hrs
    rw [← of_zero, ← of_zero]
    exact Place.shares_of hlength 0

end QueryPlan.Csv
