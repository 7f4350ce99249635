import QueryPlan.Proofs.Csv.Steady
/-!
# Readers of a steady text

A reader of a steady text that stands between two rows stands for the records that follow: it finds
them one after the other, and none of them twice. It takes the characters of a row as the records do,
wherever its mark is; only the lines that are no rows move the mark to where the next row starts.
-/
namespace QueryPlan.Csv

section Advance
variable {d c : Char} {mode : Mode} {cell cs : List Char} {cells : Row} {left : Nat}

/-- The current cell and the finished ones after one more character of a row, latest first. -/
def Mode.advance (delimiter : Char) (mode : Mode) (cell : List Char) (cells : Row) (c : Char) :
    List Char × Row :=
  if mode = .quoted then if c = '"' then (cell, cells) else (c :: cell, cells)
  else if c = '"' ∧ mode = .cellStart then ([], cells)
  else if c = '"' ∧ mode = .quoteSeen then (c :: cell, cells)
  else if c = delimiter then ([], cellText cell :: cells)
  else (c :: cell, cells)

/-- Inside quotes no character ends the line, and outside of them only two do. -/
def Mode.GoesOn (mode : Mode) (c : Char) : Prop :=
  mode = .quoted ∨ c ≠ '\n' ∧ c ≠ '\r'

theorem Mode.after_ne_rowReturn (d : Char) (mode : Mode) (c : Char) : mode.after d c ≠ .rowReturn := by
  unfold Mode.after
  split
  · split <;> decide
  · split
    · decide
    · split <;> decide

theorem Mode.step_of_goesOn {inHeader first last : Bool} (h : mode.GoesOn c) :
    Phase.step d first last c (.record inHeader mode) =
      some (.record inHeader (mode.after d c)) := by
  rw [Phase.step]
  split
  · rfl
  · next hq =>
    obtain ⟨hn, hr⟩ := h.resolve_left hq
    rw [if_neg hn, if_neg hr]

theorem Mode.lineEnd_of_not_goesOn (h : ¬ mode.GoesOn c) :
    mode ≠ .quoted ∧ (c = '\n' ∨ c = '\r') := by
  refine ⟨fun hq => h (.inl hq), ?_⟩
  by_contra hline
  exact h (.inr (not_or.1 hline))

theorem records_lineEnd (cells : Row) (hq : mode ≠ .quoted) (hline : c = '\n' ∨ c = '\r') :
    records d (some mode) cell cells (c :: cs) =
      some (cellText cell :: cells).reverse :: records d none [] [] cs := by
  have hs : some mode ≠ some Mode.quoted := fun h => hq (Option.some.inj h)
  rw [records]
  simp [hs, hline]

theorem records_advance (h : mode.GoesOn c) : records d (some mode) cell cells (c :: cs) =
    records d (some (mode.after d c)) (mode.advance d cell cells c).1
      (mode.advance d cell cells c).2 cs := by
  by_cases hq : mode = .quoted
  · simp only [records, Mode.after, Mode.advance, hq, if_true]
    split <;> rfl
  · obtain ⟨hn, hr⟩ := h.resolve_left hq
    have hs : some mode ≠ some Mode.quoted := fun h => hq (Option.some.inj h)
    rw [records]
    simp only [hs, hn, hr, hq, Mode.after, Mode.advance, if_false, reduceCtorEq, false_and, or_self,
      Option.getD_some]
    by_cases hc : c = '"'
    · cases mode <;> simp [hc] at hq ⊢ <;> split <;> rfl
    · simp only [hc, false_and, if_false]
      split <;> rfl

theorem readCells_unquoted (mark : Place) (left : Nat) (hq : mode ≠ .quoted)
    (hm : mode ≠ .rowReturn) :
    readCells d mark mode cell cells left (c :: cs) =
      let here := Place.of (c :: cs) left
      let mark := if left = 0 then here else mark
      let next : Place := ⟨cs, here.left - 1⟩
      if c = '\n' then .row (cellText cell :: cells).reverse (.ofPlace next)
      else if c = '\r' then
        readCells d mark .rowReturn [] (cellText cell :: cells) next.left cs
      else if c = '"' ∧ mode = .cellStart then readCells d mark .quoted [] cells next.left cs
      else if c = '"' ∧ mode = .quoteSeen then readCells d mark .quoted (c :: cell) cells next.left cs
      else if c = d then readCells d mark .cellStart [] (cellText cell :: cells) next.left cs
      else readCells d mark .plain (c :: cell) cells next.left cs := by
  cases mode with
  | quoted => exact absurd rfl hq
  | rowReturn => exact absurd rfl hm
  | cellStart => rfl
  | plain => rfl
  | quoteSeen => rfl

theorem readCells_advance (d : Char) (cell cs : List Char) (cells : Row) (mark : Place) (left : Nat)
    (h : mode.GoesOn c) (hm : mode ≠ .rowReturn) :
    ∃ mark', readCells d mark mode cell cells left (c :: cs) =
      readCells d mark' (mode.after d c) (mode.advance d cell cells c).1
        (mode.advance d cell cells c).2 ((Place.of (c :: cs) left).left - 1) cs := by
  by_cases hq : mode = .quoted
  · subst hq
    simp only [readCells, Mode.after, Mode.advance, if_true]
    split
    · exact ⟨_, rfl⟩
    · exact ⟨_, rfl⟩
  · obtain ⟨hn, hr⟩ := h.resolve_left hq
    refine ⟨if left = 0 then Place.of (c :: cs) left else mark, ?_⟩
    rw [readCells_unquoted mark left hq hm]
    simp only [hn, hr, hq, Mode.after, Mode.advance, if_false]
    by_cases hc : c = '"'
    · cases mode <;> simp [hc] at hq hm ⊢
      split <;> rfl
    · simp only [hc, false_and, if_false]
      split <;> rfl

theorem skipCells_advance (d : Char) (cs : List Char) (mark : Place) (left : Nat) (h : mode.GoesOn c) :
    ∃ mark', skipCells d mark mode left (c :: cs) =
      skipCells d mark' (mode.after d c) ((Place.of (c :: cs) left).left - 1) cs := by
  rw [skipCells, Mode.after]
  by_cases hq : mode = .quoted
  · simp only [hq, if_true]
    exact ⟨_, rfl⟩
  · obtain ⟨hn, hr⟩ := h.resolve_left hq
    simp only [hq, hn, hr, if_false]
    split
    · exact ⟨_, rfl⟩
    · exact ⟨_, rfl⟩

theorem afterLine_advance (h : mode.GoesOn c) :
    afterLine d mode (c :: cs) = afterLine d (mode.after d c) cs := by
  rw [afterLine, Mode.after]
  by_cases hq : mode = .quoted
  · simp only [hq, if_true]
  · obtain ⟨hn, hr⟩ := h.resolve_left hq
    simp only [hq, hn, hr, or_self, if_false]
    split <;> rfl

end Advance

/-- What a reader between two rows stands for: the records that follow it. -/
inductive Reader.StandsFor (d : Char) (r : Reader) : List (Option Row) → Prop where
  | line (marked : Bool) (hbefore : r.before ≠ .emptyCell)
    (hmark : marked = true → r.place.left ≠ 0 → r.mark.left = r.place.left)
    (h : isSteady d (.line marked (r.before = .skippedReturn)) r.place.left r.place.rest = true) :
    StandsFor d r (records d none [] [] r.place.rest)
  | emptyCell (hbefore : r.before = .emptyCell)
    (h : isSteady d (.record false .cellStart) r.place.left r.place.rest = true) :
    StandsFor d r (records d (some .cellStart) [] [""] r.place.rest)

/-- The characters behind a reader, and the delimiter it has read after an empty cell. -/
def Reader.size (r : Reader) : Nat :=
  r.place.rest.length + if r.before = .emptyCell then 1 else 0

theorem Reader.size_le (r : Reader) : r.size ≤ r.place.rest.length + 1 := by
  unfold Reader.size
  split <;> omega

@[simp] theorem Reader.size_ofPlace (p : Place) : (Reader.ofPlace p).size = p.rest.length := rfl

def Found.Reads (d : Char) (bound : Nat) (rs : List (Option Row)) : Found → Prop
  | .unterminated => rs = [none]
  | .row cells next => ∃ rest, next.StandsFor d rest ∧ next.size ≤ bound ∧ rs = some cells :: rest

theorem Found.Reads.mono {d : Char} {m n : Nat} {rs : List (Option Row)} {found : Found}
    (h : found.Reads d m rs) (hl : m ≤ n) : found.Reads d n rs := by
  cases found with
  | unterminated => exact h
  | row cells next =>
    obtain ⟨rest, hn, hs, hr⟩ := h
    exact ⟨rest, hn, Nat.le_trans hs hl, hr⟩

section Reading
variable {d : Char} {cs : List Char} {left : Nat}

theorem standsFor_ofPlace (h : isSteady d (.line true false) left cs = true) :
    (Reader.ofPlace ⟨cs, left⟩).StandsFor d (records d none [] [] cs) :=
  .line true (by simp [Reader.ofPlace]) (fun _ _ => rfl) h

theorem standsFor_finish : (Reader.ofPlace .finish).StandsFor d [] :=
  standsFor_ofPlace rfl

theorem standsFor_of {c : Char} {cs : List Char} {mark : Place} {marked : Bool}
    (h : isSteady d (.line marked false) left (c :: cs) = true) (hm : left = 0 → mark = Place.of (c :: cs) left)
    (hmark : marked = true → left ≠ 0 → mark.left = left) :
    Reader.StandsFor d { place := Place.of (c :: cs) left, mark := mark }
      (records d none [] [] (c :: cs)) := by
  have hs := isSteady_line h
  have hr : Reader.StandsFor d { place := Place.of (c :: cs) left, mark := mark }
      (records d none [] [] (Place.of (c :: cs) left).rest) := by
    refine .line (marked || left = 0) (by simp) (fun hmarked _ => ?_) ?_
    · by_cases hl : left = 0
      · rw [hm hl]
      · have hp : Place.of (c :: cs) left = ⟨c :: cs, left⟩ := Place.of_pos (Nat.pos_of_ne_zero hl)
        rw [hp]
        exact hmark (by simpa [hl] using hmarked) hl
    · simpa using hs
  rwa [rest_of] at hr

theorem isBlank_self (d : Char) : isBlank d d = false := by
  simp [isBlank]

/-- A delimiter that starts a line is the end of an empty cell, unless it is a quote. -/
theorem records_delimiter (hn : d ≠ '\n') (hr : d ≠ '\r') (hq : d ≠ '"') :
    records d none [] [] (d :: cs) = records d (some .cellStart) [] [""] cs := by
  rw [records]
  simp [hn, hr, hq, isBlank_self, cellText]

theorem readCells_return (mark : Place) (cells : Row)
    (h : isSteady d (.line false false) left cs = true) :
    (readCells d mark .rowReturn [] cells left cs).Reads d cs.length
      (some cells.reverse :: records d none [] [] cs) := by
  cases cs with
  | nil => exact ⟨[], standsFor_finish, Nat.zero_le _, rfl⟩
  | cons c cs =>
    obtain ⟨p, hp, ht⟩ := isSteady_cons h
    by_cases hn : c = '\n'
    · subst hn
      cases hp
      exact ⟨_, standsFor_ofPlace ht, Nat.le_succ _, rfl⟩
    · by_cases hd : c = d
      · subst hd
        simp only [Phase.step, hn, if_false, true_and] at hp
        split at hp
        · cases hp
        · next hodd =>
          have hq : c ≠ '"' ∧ c ≠ '\r' := by simpa using hodd
          have hstart : Mode.cellStart.after c c = .cellStart := by simp [Mode.after, hq.1]
          simp only [hq.2, isBlank_self, hstart, if_false, Bool.false_eq_true] at hp
          cases hp
          have hread : readCells c mark .rowReturn [] cells left (c :: cs) =
              .row cells.reverse ⟨⟨cs, (Place.of (c :: cs) left).left - 1⟩,
                if left = 0 then Place.of (c :: cs) left else mark, .emptyCell⟩ := by
            simp [readCells, hn]
          rw [hread, records_delimiter hn hq.2 hq.1]
          exact ⟨_, .emptyCell rfl ht, Nat.le_refl _, rfl⟩
      · have hread : readCells d mark .rowReturn [] cells left (c :: cs) =
            .row cells.reverse ⟨Place.of (c :: cs) left,
              if left = 0 then Place.of (c :: cs) left else mark, .line⟩ := by
          simp [readCells, hn, hd]
        rw [hread]
        refine ⟨_, standsFor_of h (fun hl => if_pos hl) (by simp), ?_, rfl⟩
        simp [Reader.size]

theorem readCells_reads (mark : Place) (mode : Mode) (cell : List Char) (cells : Row)
    (h : isSteady d (.record false mode) left cs = true) (hm : mode ≠ .rowReturn) :
    (readCells d mark mode cell cells left cs).Reads d (cs.length - 1)
      (records d (some mode) cell cells cs) := by
  induction cs generalizing mark mode cell cells left with
  | nil =>
    cases mode with
    | quoted => rfl
    | rowReturn => exact absurd rfl hm
    -- the end of the text ends the row
    | cellStart => exact ⟨[], standsFor_finish, Nat.le_refl _, rfl⟩
    | plain => exact ⟨[], standsFor_finish, Nat.le_refl _, rfl⟩
    | quoteSeen => exact ⟨[], standsFor_finish, Nat.le_refl _, rfl⟩
  | cons c cs ih =>
    obtain ⟨p, hp, ht⟩ := isSteady_cons h
    by_cases hgo : mode.GoesOn c
    · rw [Mode.step_of_goesOn hgo] at hp
      cases hp
      obtain ⟨mark', hread⟩ := readCells_advance d cell cs cells mark left hgo hm
      rw [hread, records_advance hgo]
      apply (ih mark' _ _ _ ht (Mode.after_ne_rowReturn d mode c)).mono
      simp
    · obtain ⟨hq, hline⟩ := Mode.lineEnd_of_not_goesOn hgo
      rw [records_lineEnd cells hq hline, readCells_unquoted mark left hq hm]
      dsimp only
      by_cases hn : c = '\n'
      · subst hn
        simp only [Phase.step, hq, if_false, if_true] at hp
        cases hp
        rw [if_pos rfl]
        exact ⟨_, standsFor_ofPlace ht, by simp, rfl⟩
      · have hr : c = '\r' := hline.resolve_left hn
        subst hr
        simp only [Phase.step, hq, hn, if_false, if_true] at hp
        cases hp
        rw [if_neg hn, if_pos rfl]
        exact readCells_return _ _ ht

end Reading

section Skipping
variable {d : Char} {cs : List Char} {left : Nat}

theorem records_line {c : Char} (cell : List Char) (h : c = '\n' ∨ c = '\r') :
    records d none cell [] (c :: cs) = records d none [] [] cs := by
  rw [records]
  simp [h]

theorem records_blank {c : Char} (cell : List Char) (hline : ¬ (c = '\n' ∨ c = '\r'))
    (hb : isBlank d c = true) :
    records d none cell [] (c :: cs) = records d none (c :: cell) [] cs := by
  rw [records]
  simp [hline, hb]

theorem records_begin {c : Char} (cell : List Char) (hline : ¬ (c = '\n' ∨ c = '\r'))
    (hb : ¬ isBlank d c = true) : records d none cell [] (c :: cs) =
      records d (some (if cell.isEmpty then .cellStart else .plain)) cell [] (c :: cs) := by
  have hq : some (if cell.isEmpty then Mode.cellStart else .plain) ≠ some .quoted := by
    split <;> decide
  rw [records, records]
  simp only [hq, hline, hb, reduceCtorEq, if_false, and_false, Bool.false_eq_true,
    Option.getD_none, Option.getD_some]

/-- Where a row begins: the record at hand is still to be read, and no row is read again. -/
structure Opening.Begins (d : Char) (bound : Nat) (rs : List (Option Row)) (o : Opening) :
    Prop where
  again : o.again = false
  mode : o.mode ≠ .rowReturn
  steady : isSteady d (.record false o.mode) o.place.left o.place.rest = true
  ne_nil : o.place.rest ≠ []
  length : o.place.rest.length ≤ bound
  records : rs = records d (some o.mode) o.cell [] o.place.rest

/-- Where the lines that are no rows lead: to the first record, or to the end of the text. -/
def LeadsTo (d : Char) (bound : Nat) (rs : List (Option Row)) : Option Opening → Prop
  | none => rs = []
  | some o => o.Begins d bound rs

theorem LeadsTo.mono {m n : Nat} {rs : List (Option Row)} {o : Option Opening}
    (h : LeadsTo d m rs o) (hl : m ≤ n) : LeadsTo d n rs o := by
  cases o with
  | none => exact h
  | some o => exact { h with length := Nat.le_trans h.length hl }

/-- What a reader that skips lines keeps in some phase. The blanks in front of a row are those of the
record, and the mark lies before them. -/
def SkipHolds (mark : Place) (blanks cell : List Char) (returned : Bool) (left : Nat) : Phase → Prop
  | .line marked r =>
    returned = r ∧ blanks = [] ∧ cell = [] ∧ (marked = true → left ≠ 0 → mark.left = left)
  | .blank kept =>
    returned = false ∧ (kept = true → blanks = cell ∧ cell ≠ [] ∧ left ≠ 0 ∧
      mark.left = left + cell.length)
  | _ => False

theorem skipLines_cons (d c : Char) (cs : List Char) (mark : Place) (blanks : List Char)
    (returned : Bool) (left : Nat) : skipLines d mark blanks returned left (c :: cs) =
      let here := Place.of (c :: cs) left
      let mark := if left = 0 then here else mark
      let blanks := if left = 0 then [] else blanks
      let next : Place := ⟨cs, here.left - 1⟩
      if c = '\n' then skipLines d next [] false next.left cs
      else if returned ∧ c = d then skipLines d mark [] false next.left cs
      else if c = '\r' then skipLines d mark [] true next.left cs
      else if isBlank d c then skipLines d mark (c :: blanks) false next.left cs
      else if blanks.isEmpty then some ⟨here, mark, .cellStart, [], false⟩
      else if mark.left = here.left + blanks.length then some ⟨here, mark, .plain, blanks, false⟩
      else some ⟨mark, mark, .cellStart, [], true⟩ := rfl

private theorem begins_of {c : Char} {mark : Place} {mode : Mode} {cell : List Char} {p : Phase}
    (hline : ¬ (c = '\n' ∨ c = '\r')) (hb : ¬ isBlank d c = true)
    (hmode : mode = if cell.isEmpty then .cellStart else .plain)
    (hp : p = .record false (mode.after d c))
    (ht : isSteady d p ((Place.of (c :: cs) left).left - 1) cs = true) :
    LeadsTo d (c :: cs).length (records d none cell [] (c :: cs))
      (some ⟨Place.of (c :: cs) left, mark, mode, cell, false⟩) := by
  subst hp
  have hm : mode ≠ .rowReturn := by
    rw [hmode]
    split <;> decide
  have hsteady : isSteady d (.record false mode) (Place.of (c :: cs) left).left (c :: cs) = true := by
    apply isSteady_of_step (Mode.step_of_goesOn (.inr (not_or.1 hline)))
    rwa [of_left_of]
  exact {
    again := rfl
    mode := hm
    steady := by simpa using hsteady
    ne_nil := by simp
    length := by simp
    records := by simp [records_begin cell hline hb, hmode] }

/-- One more character of the lines that are no rows is skipped, or a row begins with it. -/
private inductive SkipStep (d c : Char) (cs : List Char) (left : Nat) (mark : Place)
    (blanks cell : List Char) (returned : Bool) (p : Phase) : Prop where
  | on {mark' : Place} {blanks' cell' : List Char} {returned' : Bool}
    (hskip : skipLines d mark blanks returned left (c :: cs) =
      skipLines d mark' blanks' returned' ((Place.of (c :: cs) left).left - 1) cs)
    (hrecords : records d none cell [] (c :: cs) = records d none cell' [] cs)
    (hholds : SkipHolds mark' blanks' cell' returned' ((Place.of (c :: cs) left).left - 1) p) :
    SkipStep d c cs left mark blanks cell returned p
  | begins {mark' : Place} {mode : Mode}
    (hskip : skipLines d mark blanks returned left (c :: cs) =
      some ⟨Place.of (c :: cs) left, mark', mode, cell, false⟩)
    (hline : ¬ (c = '\n' ∨ c = '\r')) (hb : ¬ isBlank d c = true)
    (hmode : mode = if cell.isEmpty then .cellStart else .plain)
    (hp : p = .record false (mode.after d c)) :
    SkipStep d c cs left mark blanks cell returned p

section Step
variable {c : Char} {mark : Place} {blanks cell : List Char} {returned : Bool} {p : Phase}

private theorem skipStep_feed {phase : Phase} {first last : Bool} (hn : c = '\n')
    (hp : phase.step d first last c = some p)
    (hm : SkipHolds mark blanks cell returned left phase) :
    SkipStep d c cs left mark blanks cell returned p := by
  have hfed : p = .line true false := by
    cases phase with
    | header => exact hm.elim
    | record => exact hm.elim
    | line => simpa [Phase.step, hn, eq_comm] using hp
    | blank => simpa [Phase.step, hn, eq_comm] using hp
  subst hfed
  have hskip := skipLines_cons d c cs mark blanks returned left
  dsimp only at hskip
  rw [if_pos hn] at hskip
  exact .on hskip (records_line cell (.inl hn)) ⟨rfl, rfl, rfl, fun _ _ => rfl⟩

/-- At the start of a line no delimiter follows a carriage return, so none is lost. -/
private theorem skipStep_line {marked : Bool} (hn : c ≠ '\n')
    (hp : Phase.step d (left = 0) ((Place.of (c :: cs) left).left = 1) c (.line marked returned) =
      some p)
    (hmark : marked = true → left ≠ 0 → mark.left = left) :
    SkipStep d c cs left mark [] [] returned p := by
  have hpos : 0 < (Place.of (c :: cs) left).left := left_of_pos
  simp only [Phase.step, hn, if_false] at hp
  split at hp
  · cases hp
  next hd =>
  have hret : ¬ (returned = true ∧ c = d) := fun h => hd ⟨h.2, .inl h.1⟩
  have hskip := skipLines_cons d c cs mark [] returned left
  dsimp only at hskip
  rw [if_neg hn, if_neg hret, ite_self] at hskip
  by_cases hr : c = '\r'
  · rw [if_pos hr] at hp hskip
    cases hp
    exact .on hskip (records_line [] (.inr hr)) ⟨rfl, rfl, rfl, by simp⟩
  · rw [if_neg hr] at hp hskip
    by_cases hb : isBlank d c = true
    · rw [if_pos hb] at hp hskip
      cases hp
      refine .on hskip (records_blank [] (not_or.2 ⟨hn, hr⟩) hb) ⟨rfl, fun hk => ?_⟩
      obtain ⟨hk, hlast⟩ : (marked = true ∨ left = 0) ∧ (Place.of (c :: cs) left).left ≠ 1 := by
        simpa using hk
      refine ⟨rfl, by simp, by omega, ?_⟩
      rw [List.length_singleton]
      by_cases hl : left = 0
      · rw [if_pos hl]
        omega
      · have hp : (Place.of (c :: cs) left).left = left := by
          rw [Place.of_pos (Nat.pos_of_ne_zero hl)]
        rw [if_neg hl, hmark (hk.resolve_right hl) hl, hp]
        omega
    · rw [if_neg hb] at hp hskip
      cases hp
      rw [List.isEmpty_nil, if_pos rfl] at hskip
      exact .begins hskip (not_or.2 ⟨hn, hr⟩) hb rfl rfl

private theorem skipStep_blank {kept : Bool} (hn : c ≠ '\n')
    (hp : Phase.step d (left = 0) ((Place.of (c :: cs) left).left = 1) c (.blank kept) = some p)
    (hkept : kept = true → blanks = cell ∧ cell ≠ [] ∧ left ≠ 0 ∧ mark.left = left + cell.length) :
    SkipStep d c cs left mark blanks cell false p := by
  simp only [Phase.step, hn, if_false] at hp
  have hskip := skipLines_cons d c cs mark blanks false left
  dsimp only at hskip
  rw [if_neg hn, if_neg (by simp)] at hskip
  by_cases hr : c = '\r'
  · rw [if_pos hr] at hp hskip
    cases hp
    exact .on hskip (records_line cell (.inr hr)) ⟨rfl, rfl, rfl, by simp⟩
  · rw [if_neg hr] at hp hskip
    have hhere : left ≠ 0 → (Place.of (c :: cs) left).left = left := fun hl => by
      rw [Place.of_pos (Nat.pos_of_ne_zero hl)]
    by_cases hb : isBlank d c = true
    · rw [if_pos hb] at hp hskip
      cases hp
      refine .on hskip (records_blank cell (not_or.2 ⟨hn, hr⟩) hb) ⟨rfl, fun hk => ?_⟩
      obtain ⟨hk, hlast⟩ : kept = true ∧ (Place.of (c :: cs) left).left ≠ 1 := by simpa using hk
      obtain ⟨hblanks, hne, hl, hmark⟩ := hkept hk
      have hleft := hhere hl
      rw [if_neg hl, if_neg hl, hblanks, List.length_cons]
      exact ⟨rfl, by simp, by omega, by omega⟩
    · rw [if_neg hb] at hp hskip
      split at hp
      · next hk =>
        cases hp
        obtain ⟨hblanks, hne, hl, hmark⟩ := hkept hk
        have hempty : cell.isEmpty = false := by simpa using hne
        subst hblanks
        rw [if_neg hl, if_neg hl, hempty, hhere hl, if_neg (by simp), if_pos hmark] at hskip
        exact .begins hskip (not_or.2 ⟨hn, hr⟩) hb (by simp [hempty]) rfl
      · cases hp

private theorem skipStep_of {phase : Phase}
    (hp : phase.step d (left = 0) ((Place.of (c :: cs) left).left = 1) c = some p)
    (hm : SkipHolds mark blanks cell returned left phase) :
    SkipStep d c cs left mark blanks cell returned p := by
  by_cases hn : c = '\n'
  · exact skipStep_feed hn hp hm
  · cases phase with
    | header => exact hm.elim
    | record => exact hm.elim
    | line marked r =>
      obtain ⟨rfl, rfl, rfl, hmark⟩ := hm
      exact skipStep_line hn hp hmark
    | blank kept =>
      obtain ⟨rfl, hkept⟩ := hm
      exact skipStep_blank hn hp hkept

end Step

/-- Skipping lines leads to the first record, if there is one. -/
theorem skipLines_leadsTo (mark : Place) (blanks cell : List Char) (returned : Bool) {phase : Phase}
    (h : isSteady d phase left cs = true) (hm : SkipHolds mark blanks cell returned left phase) :
    LeadsTo d cs.length (records d none cell [] cs) (skipLines d mark blanks returned left cs) := by
  induction cs generalizing mark blanks cell returned left phase with
  | nil => rfl
  | cons c cs ih =>
    obtain ⟨p, hp, ht⟩ := isSteady_cons h
    cases skipStep_of hp hm with
    | on hskip hrecords hholds =>
      rw [hskip, hrecords]
      exact (ih _ _ _ _ ht hholds).mono (Nat.le_succ _)
    | begins hskip hline hb hmode hrecord =>
      rw [hskip]
      exact begins_of hline hb hmode hrecord ht

end Skipping

/-- The next row is the next record, and it is not read again. -/
theorem Reader.StandsFor.next {d : Char} {r : Reader} {rs : List (Option Row)}
    (h : r.StandsFor d rs) : r.next d = none ∧ rs = [] ∨
      ∃ found, r.next d = some (false, found) ∧ 0 < r.size ∧ found.Reads d (r.size - 1) rs := by
  cases h with
  | emptyCell hbefore h =>
    right
    have hsize : r.size = r.place.rest.length + 1 := by rw [Reader.size, if_pos hbefore]
    refine ⟨_, by rw [Reader.next, if_pos hbefore], by omega, ?_⟩
    apply (readCells_reads r.mark .cellStart [] [""] h (by decide)).mono
    omega
  | line marked hbefore hmark h =>
    have hsize : r.size = r.place.rest.length := by rw [Reader.size, if_neg hbefore, Nat.add_zero]
    have hholds : SkipHolds r.mark [] [] (decide (r.before = .skippedReturn)) r.place.left
        (.line marked (r.before = .skippedReturn)) := ⟨rfl, rfl, rfl, hmark⟩
    have hskip := skipLines_leadsTo r.mark [] [] _ h hholds
    rw [Reader.next, if_neg hbefore]
    cases ho : skipLines d r.mark [] (decide (r.before = .skippedReturn)) r.place.left
        r.place.rest with
    | none =>
      rw [ho] at hskip
      exact .inl ⟨rfl, hskip⟩
    | some o =>
      rw [ho] at hskip
      have hpos : 0 < o.place.rest.length := List.length_pos_iff.2 hskip.ne_nil
      have hreads := readCells_reads o.mark o.mode o.cell [] hskip.steady hskip.mode
      rw [← hskip.records] at hreads
      have hlength := hskip.length
      exact .inr ⟨_, by rw [Option.map_some, hskip.again], by omega, hreads.mono (by omega)⟩

theorem Reader.StandsFor.markHere {d : Char} {r : Reader} {rs : List (Option Row)}
    (h : r.StandsFor d rs) : r.markHere.StandsFor d rs := by
  have hrest : r.markHere.place.rest = r.place.rest := rest_of
  cases h with
  | line marked hbefore hmark h =>
    rw [← hrest]
    refine .line (marked || r.place.left = 0) hbefore (fun _ _ => rfl) ?_
    rw [hrest, Reader.markHere]
    cases hcs : r.place.rest with
    | nil => exact isSteady_nil
    | cons c cs =>
      rw [hcs] at h
      exact isSteady_line h
  | emptyCell hbefore h =>
    rw [← hrest]
    refine .emptyCell hbefore ?_
    rw [hrest, Reader.markHere]
    cases hcs : r.place.rest with
    | nil => exact isSteady_nil
    | cons c cs =>
      rw [hcs] at h
      exact isSteady_here (fun _ _ _ => rfl) h

@[simp] theorem Reader.size_markHere (r : Reader) : r.markHere.size = r.size := by
  have hrest : r.markHere.place.rest = r.place.rest := rest_of
  rw [Reader.size, Reader.size, hrest]
  rfl

section Header
variable {d : Char} {cs : List Char} {left : Nat}

theorem skipCells_standsFor (mark : Place) (mode : Mode)
    (h : isSteady d (.record true mode) left cs = true) :
    (skipCells d mark mode left cs).StandsFor d (records d none [] [] (afterLine d mode cs)) := by
  induction cs generalizing mark mode left with
  | nil => exact standsFor_finish
  | cons c cs ih =>
    obtain ⟨p, hp, ht⟩ := isSteady_cons h
    by_cases hgo : mode.GoesOn c
    · rw [Mode.step_of_goesOn hgo] at hp
      cases hp
      obtain ⟨mark', hskip⟩ := skipCells_advance d cs mark left hgo
      rw [hskip, afterLine_advance hgo]
      exact ih mark' _ ht
    · obtain ⟨hq, hline⟩ := Mode.lineEnd_of_not_goesOn hgo
      rw [skipCells, afterLine, if_neg hq, if_neg hq, if_pos hline]
      dsimp only
      by_cases hn : c = '\n'
      · simp only [Phase.step, hq, hn, if_false, if_true] at hp
        cases hp
        rw [if_pos hn]
        exact standsFor_ofPlace ht
      · have hr : c = '\r' := hline.resolve_left hn
        simp only [Phase.step, hq, hr, if_false, if_true] at hp
        cases hp
        rw [if_neg hn, if_pos hr]
        exact .line false (by simp) (by simp) ht

theorem afterHeader_standsFor (hl : cs ≠ [] → left ≠ 0)
    (h : isSteady d .header left cs = true) :
    (Reader.afterHeader d ⟨cs, left⟩).StandsFor d
      (records d none [] [] (afterHeaderLine d cs)) := by
  cases cs with
  | nil => exact standsFor_ofPlace rfl
  | cons c cs =>
    obtain ⟨p, hp, ht⟩ := isSteady_cons h
    rw [Place.of_pos (Nat.pos_of_ne_zero (hl (List.cons_ne_nil _ _)))] at ht
    rw [Reader.afterHeader, afterHeaderLine]
    dsimp only
    rw [Phase.step] at hp
    by_cases hn : c = '\n'
    · rw [if_pos hn] at hp ⊢
      cases hp
      rw [if_pos hn]
      exact standsFor_ofPlace ht
    · rw [if_neg hn] at hp ⊢
      cases hp
      rw [if_neg hn]
      exact skipCells_standsFor _ _ ht

/-- A reader at the start of a steady text stands for the records of the text. -/
theorem start_standsFor {hasHeader : Bool} (h : isSteadyText d hasHeader cs = true) :
    (if hasHeader then Reader.afterHeader d (Place.blockStart cs)
      else Reader.ofPlace (Place.blockStart cs)).StandsFor d (recordsOf d hasHeader cs) := by
  have hstart : isSteady d (if hasHeader then .header else .line true false)
      (Place.blockStart cs).left cs = true := by
    cases cs with
    | nil => rfl
    | cons c cs =>
      rw [← of_zero]
      cases hasHeader with
      | true => exact isSteady_here (fun _ _ _ => rfl) h
      | false => exact isSteady_line h
  have hleft : cs ≠ [] → (Place.blockStart cs).left ≠ 0 := by
    intro hne
    obtain ⟨c, cs, rfl⟩ := List.exists_cons_of_ne_nil hne
    rw [← of_zero]
    exact Nat.ne_of_gt left_of_pos
  cases hasHeader with
  | true => exact afterHeader_standsFor hleft hstart
  | false => exact standsFor_ofPlace hstart

end Header
end QueryPlan.Csv
