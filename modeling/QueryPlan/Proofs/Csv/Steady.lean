import QueryPlan.Proofs.Csv.Record
/-!
# Steady texts

A text is steady when none of its rows is read again and none of their characters is lost. A row that
starts with blanks has to follow a line feed or the beginning of a block, and its block may not end
inside those blanks. A row that starts with a delimiter may not follow a carriage return that ended a
line which is no row.

A text is tame when a line feed follows each of its carriage returns and no block ends with a blank,
unless the whole text does. Tame texts are steady.
-/
namespace QueryPlan.Csv

def Mode.after (delimiter : Char) (mode : Mode) (c : Char) : Mode :=
  if mode = .quoted then if c = '"' then .quoteSeen else .quoted
  else if c = '"' ∧ (mode = .cellStart ∨ mode = .quoteSeen) then .quoted
  else if c = delimiter then .cellStart
  else .plain

inductive Phase where
  /-- At the first character of the header. -/
  | header
  /-- At the start of a line. It is marked when the mark is known to be there, and returned when a
  carriage return ended a line before it that is no row. -/
  | line (marked returned : Bool)
  /-- After some blanks that start a line. They are kept unless a row would not start with them. -/
  | blank (kept : Bool)
  /-- In a row, or in the header. -/
  | record (inHeader : Bool) (mode : Mode)
  deriving DecidableEq, Repr

/-- The phase after one more character, which may be the first or the last one of its block, unless
the text is not steady there. -/
def Phase.step (delimiter : Char) (first last : Bool) (c : Char) : Phase → Option Phase
  | .header =>
    if c = '\n' then some (.line true false)
    else some (.record true (if c = '"' then .quoted else .plain))
  | .line marked returned =>
    if c = '\n' then some (.line true false)
    else if c = delimiter ∧ (returned ∨ !marked ∧ (delimiter = '"' ∨ delimiter = '\r')) then none
    else if c = '\r' then some (.line false true)
    else if isBlank delimiter c then some (.blank ((marked || first) && !last))
    else some (.record false (Mode.cellStart.after delimiter c))
  | .blank kept =>
    if c = '\n' then some (.line true false)
    else if c = '\r' then some (.line false true)
    else if isBlank delimiter c then some (.blank (kept && !last))
    else if kept then some (.record false (Mode.plain.after delimiter c))
    else none
  | .record inHeader mode =>
    if mode = .quoted then some (.record inHeader (mode.after delimiter c))
    else if c = '\n' then some (.line true false)
    else if c = '\r' then some (.line false inHeader)
    else some (.record inHeader (mode.after delimiter c))

def isSteady (delimiter : Char) (phase : Phase) (left : Nat) : List Char → Bool
  | [] => true
  | c :: cs =>
    let here := (Place.of (c :: cs) left).left
    match phase.step delimiter (left = 0) (here = 1) c with
    | none => false
    | some phase => isSteady delimiter phase (here - 1) cs

def isSteadyText (delimiter : Char) (hasHeader : Bool) (cs : List Char) : Bool :=
  isSteady delimiter (if hasHeader then .header else .line true false) 0 cs

section Place
variable {c : Char} {cs : List Char} {left : Nat}

theorem left_of_pos : 0 < (Place.of (c :: cs) left).left := by
  unfold Place.of
  split
  · simp [Place.blockStart, blockSize]
  · exact Nat.pos_of_ne_zero ‹_›

theorem of_zero (cs : List Char) : Place.of cs 0 = Place.blockStart cs := if_pos rfl

@[simp] theorem rest_of : (Place.of cs left).rest = cs := by
  unfold Place.of
  split <;> rfl

theorem of_left_of : Place.of (c :: cs) (Place.of (c :: cs) left).left = Place.of (c :: cs) left := by
  rw [Place.of_pos left_of_pos]
  exact congrArg (Place.mk · _) rest_of.symm

end Place

section Steady
variable {d c : Char} {cs : List Char} {left : Nat} {phase : Phase}

@[simp] theorem isSteady_nil : isSteady d phase left [] = true := rfl

theorem isSteady_cons (h : isSteady d phase left (c :: cs) = true) :
    ∃ p, phase.step d (left = 0) ((Place.of (c :: cs) left).left = 1) c = some p ∧
      isSteady d p ((Place.of (c :: cs) left).left - 1) cs = true := by
  rw [isSteady] at h
  split at h
  · cases h
  · next p hp => exact ⟨p, hp, h⟩

theorem isSteady_of_step {p : Phase}
    (hp : phase.step d (left = 0) ((Place.of (c :: cs) left).left = 1) c = some p)
    (h : isSteady d p ((Place.of (c :: cs) left).left - 1) cs = true) :
    isSteady d phase left (c :: cs) = true := by
  rw [isSteady, hp]
  exact h

/-- At the beginning of a block, which is where the mark is put then, a line counts as marked. -/
theorem isSteady_line {marked returned : Bool}
    (h : isSteady d (.line marked returned) left (c :: cs) = true) :
    isSteady d (.line (marked || left = 0) returned) (Place.of (c :: cs) left).left (c :: cs) =
      true := by
  obtain ⟨p, hp, ht⟩ := isSteady_cons h
  have hne : (Place.of (c :: cs) left).left ≠ 0 := Nat.pos_iff_ne_zero.1 left_of_pos
  apply isSteady_of_step (p := p)
  · rw [of_left_of]
    by_cases hl : left = 0
    · simp only [Phase.step, hl, decide_true, Bool.or_true] at hp ⊢
      by_cases hn : c = '\n'
      · simpa [hn] using hp
      · rw [if_neg hn] at hp ⊢
        split at hp
        · cases hp
        · next hd =>
          have hret : ¬ (c = d ∧ (returned = true ∨ (!true) = true ∧ (d = '"' ∨ d = '\r'))) := by
            rintro ⟨hc, hr⟩
            exact hd ⟨hc, hr.imp_right fun h => absurd h.1 (by decide)⟩
          rw [if_neg hret]
          simpa using hp
    · simpa [hl, hne] using hp
  · rwa [of_left_of]

theorem isSteady_here (hfirst : ∀ first last c,
      phase.step d first last c = phase.step d false last c)
    (h : isSteady d phase left (c :: cs) = true) :
    isSteady d phase (Place.of (c :: cs) left).left (c :: cs) = true := by
  obtain ⟨p, hp, ht⟩ := isSteady_cons h
  apply isSteady_of_step (p := p)
  · rw [of_left_of, hfirst, ← hfirst (left = 0)]
    exact hp
  · rwa [of_left_of]

end Steady

section Tame

def isTame (delimiter : Char) : Nat → List Char → Bool
  | _, [] => true
  | left, c :: cs =>
    let here := (Place.of (c :: cs) left).left
    (c != '\r' || cs.head? == some '\n') && (!isBlank delimiter c || here != 1 || cs.isEmpty) &&
      isTame delimiter (here - 1) cs

variable {d c : Char} {cs : List Char} {left : Nat}

theorem isTame_cons (h : isTame d left (c :: cs) = true) :
    (c = '\r' → cs.head? = some '\n') ∧
      (isBlank d c = true → (Place.of (c :: cs) left).left = 1 → cs = []) ∧
        isTame d ((Place.of (c :: cs) left).left - 1) cs = true := by
  rw [isTame, Bool.and_eq_true, Bool.and_eq_true] at h
  obtain ⟨⟨hr, hb⟩, ht⟩ := h
  refine ⟨fun hc => ?_, fun hc hl => ?_, ht⟩
  · simpa [hc] using hr
  · simpa [hc, hl] using hb

/-- The phases that a tame text comes to: a line feed is about to move a mark that is not there, and
no blanks are lost. -/
def Phase.FitsTame (cs : List Char) : Phase → Prop
  | .line marked returned => marked = true ∧ returned = false ∨ cs.head? = some '\n'
  | .blank kept => kept = true ∨ cs = []
  | _ => True

theorem Phase.FitsTame.step {phase : Phase} (first last : Bool) (h : phase.FitsTame (c :: cs))
    (hreturn : c = '\r' → cs.head? = some '\n')
    (hblank : isBlank d c = true → last = true → cs = []) :
    ∃ p, phase.step d first last c = some p ∧ p.FitsTame cs := by
  have hlast : isBlank d c = true → (!last) = true ∨ cs = [] := fun hb => by
    cases last with
    | true => exact .inr (hblank hb rfl)
    | false => exact .inl rfl
  cases phase with
  | header =>
    rw [Phase.step]
    split
    · exact ⟨_, rfl, .inl ⟨rfl, rfl⟩⟩
    · exact ⟨.record _ _, rfl, trivial⟩
  | line marked returned =>
    rw [Phase.step]
    by_cases hn : c = '\n'
    · rw [if_pos hn]
      exact ⟨_, rfl, .inl ⟨rfl, rfl⟩⟩
    · obtain ⟨hm, hr⟩ : marked = true ∧ returned = false := h.resolve_right (by simpa using hn)
      rw [if_neg hn, if_neg (by simp [hm, hr])]
      split
      · exact ⟨_, rfl, .inr (hreturn ‹_›)⟩
      · split
        · next hb =>
          rw [hm, Bool.true_or, Bool.true_and]
          exact ⟨_, rfl, hlast hb⟩
        · exact ⟨.record _ _, rfl, trivial⟩
  | blank kept =>
    have hk : kept = true := h.resolve_right (List.cons_ne_nil _ _)
    subst hk
    rw [Phase.step]
    split
    · exact ⟨_, rfl, .inl ⟨rfl, rfl⟩⟩
    · split
      · exact ⟨_, rfl, .inr (hreturn ‹_›)⟩
      · split
        · next hb =>
          rw [Bool.true_and]
          exact ⟨_, rfl, hlast hb⟩
        · exact ⟨.record _ _, rfl, trivial⟩
  | record inHeader mode =>
    rw [Phase.step]
    split
    · exact ⟨.record _ _, rfl, trivial⟩
    · split
      · exact ⟨_, rfl, .inl ⟨rfl, rfl⟩⟩
      · split
        · exact ⟨_, rfl, .inr (hreturn ‹_›)⟩
        · exact ⟨.record _ _, rfl, trivial⟩

theorem isSteady_of_isTame {phase : Phase} (h : isTame d left cs = true)
    (hp : phase.FitsTame cs) : isSteady d phase left cs = true := by
  induction cs generalizing phase left with
  | nil => rfl
  | cons c cs ih =>
    obtain ⟨hreturn, hblank, ht⟩ := isTame_cons h
    obtain ⟨p, hstep, hfits⟩ := hp.step (left = 0) ((Place.of (c :: cs) left).left = 1) hreturn
      fun hb hl => hblank hb (of_decide_eq_true hl)
    exact isSteady_of_step hstep (ih ht hfits)

theorem isSteadyText_of_isTame (hasHeader : Bool) (h : isTame d 0 cs = true) :
    isSteadyText d hasHeader cs = true := by
  apply isSteady_of_isTame h
  cases hasHeader with
  | true => trivial
  | false => exact .inl ⟨rfl, rfl⟩

end Tame
end QueryPlan.Csv
