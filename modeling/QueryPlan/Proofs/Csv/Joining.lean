import QueryPlan.Proofs.Csv.PlainReading
/-!
# Texts one after the other

A text is closed when it ends where a line does, outside quotes. What follows a closed text is read as
if it stood alone: the records of both texts follow each other.
-/
namespace QueryPlan.Csv

def LineEnded (cs : List Char) : Prop :=
  ∀ c ∈ cs.getLast?, c = '\n' ∨ c = '\r'

instance (cs : List Char) : Decidable (LineEnded cs) :=
  decidable_of_iff (cs.getLast?.all fun c => c = '\n' ∨ c = '\r')
    (by cases h : cs.getLast? <;> simp [LineEnded, h])

section LineEnded
variable {c : Char} {cs : List Char}

theorem lineEnded_nil : LineEnded [] := by
  simp [LineEnded]

theorem LineEnded.tail (h : LineEnded (c :: cs)) : LineEnded cs := by
  cases cs with
  | nil => exact lineEnded_nil
  | cons a cs =>
    rw [LineEnded, List.getLast?_cons_cons] at h
    exact h

theorem LineEnded.ne_nil (h : LineEnded (c :: cs)) (hc : ¬ (c = '\n' ∨ c = '\r')) : cs ≠ [] := by
  rintro rfl
  exact hc (h c rfl)

end LineEnded

section Records
variable {d : Char} {cs rest : List Char}

/-- Behind this text the records start anew, from wherever it is read. Before the first cell of a
record no cell is finished, and the text may be empty only between two lines. -/
private def StartsAnew (d : Char) (rest cs : List Char) : Prop :=
  ∀ ⦃mode : Option Mode⦄ ⦃cell : List Char⦄ ⦃cells : Row⦄,
    (mode = none → cells = []) → (cs = [] → mode = none ∧ cell = []) →
      none ∉ records d mode cell cells cs → records d mode cell cells (cs ++ rest) =
        records d mode cell cells cs ++ records d none [] [] rest

private theorem StartsAnew.record (ih : StartsAnew d rest cs) {c : Char} {mode : Mode}
    {cell : List Char} {cells : Row} (hend : LineEnded (c :: cs))
    (hclosed : none ∉ records d (some mode) cell cells (c :: cs)) :
    records d (some mode) cell cells (c :: (cs ++ rest)) =
      records d (some mode) cell cells (c :: cs) ++ records d none [] [] rest := by
  by_cases hgo : mode.GoesOn c
  · rw [records_advance hgo] at hclosed
    rw [records_advance hgo, records_advance hgo]
    refine ih (by simp) (fun hnil => ?_) hclosed
    -- only inside quotes the last character does not end the record, and then it is not closed
    subst hnil
    have hline := hend c rfl
    have hq : mode = .quoted := hgo.resolve_right fun h => not_or.2 h hline
    have hc : c ≠ '"' := by
      rcases hline with rfl | rfl <;> decide
    simp [hq, Mode.after, hc, records] at hclosed
  · obtain ⟨hq, hline⟩ := Mode.lineEnd_of_not_goesOn hgo
    rw [records_lineEnd cells hq hline] at hclosed
    rw [records_lineEnd cells hq hline, records_lineEnd cells hq hline, List.cons_append,
      ih (fun _ => rfl) (fun _ => ⟨rfl, rfl⟩) fun h => hclosed (List.mem_cons_of_mem _ h)]

private theorem StartsAnew.cons (ih : StartsAnew d rest cs) {c : Char} (hend : LineEnded (c :: cs)) :
    StartsAnew d rest (c :: cs) := by
  intro mode cell cells hcells _ hclosed
  rw [List.cons_append]
  cases mode with
  | some mode => exact ih.record hend hclosed
  | none =>
    rw [hcells rfl] at hclosed ⊢
    by_cases hline : c = '\n' ∨ c = '\r'
    · rw [records_line cell hline] at hclosed ⊢
      rw [records_line cell hline]
      exact ih (fun _ => rfl) (fun _ => ⟨rfl, rfl⟩) hclosed
    · by_cases hb : isBlank d c = true
      · rw [records_blank cell hline hb] at hclosed ⊢
        rw [records_blank cell hline hb]
        exact ih (fun _ => rfl) (fun hnil => absurd hnil (hend.ne_nil hline)) hclosed
      · rw [records_begin cell hline hb] at hclosed ⊢
        rw [records_begin cell hline hb]
        exact ih.record hend hclosed

theorem records_append (hend : LineEnded cs) (hclosed : none ∉ records d none [] [] cs) :
    records d none [] [] (cs ++ rest) = records d none [] [] cs ++ records d none [] [] rest := by
  have h : StartsAnew d rest cs := by
    clear hclosed
    induction cs with
    | nil =>
      intro mode cell cells hcells hstart _
      obtain ⟨rfl, rfl⟩ := hstart rfl
      rw [hcells rfl]
      rfl
    | cons c cs ih => exact (ih hend.tail).cons hend
  exact h (fun _ => rfl) (fun _ => ⟨rfl, rfl⟩) hclosed

end Records

theorem forall_head?_append {α : Type} {P : α → Prop} {xs ys : List α} (hx : ∀ x ∈ xs.head?, P x)
    (hy : ∀ y ∈ ys.head?, P y) : ∀ x ∈ (xs ++ ys).head?, P x := by
  cases xs with
  | nil => exact hy
  | cons x xs => exact hx

theorem plainBatches_append {size : Nat} (hs : 0 < size) {rs rs' : List (Option Row)}
    (hdvd : size ∣ rs.length) {batches : List (List Row)}
    (h : plainBatches size rs = batches.map .ok) :
    plainBatches size (rs ++ rs') = batches.map .ok ++ plainBatches size rs' := by
  have hgo : ∀ (bs : List (List Row)) (xs : List (Except ReadError (List Row))),
      upToFailure (bs.map .ok ++ xs) = bs.map .ok ++ upToFailure xs := by
    intro bs xs
    induction bs with
    | nil => rfl
    | cons b bs ih => rw [List.map_cons, List.cons_append, upToFailure, ih, List.cons_append]
  rw [plainBatches, upToFailure_eq_map_ok_iff] at h
  rw [plainBatches, groups_append hs hdvd, List.map_append, h, hgo, ← plainBatches]

/-- The batches of two steady texts that are steady together follow each other, when the first one
ends with the end of a line and its records are closed and fill their batches. -/
theorem batchesOfText_append {d : Char} {size : Nat} {cs rest : List Char} (hs : 0 < size)
    (hend : LineEnded cs) (hclosed : none ∉ records d none [] [] cs)
    (hdvd : size ∣ (records d none [] [] cs).length) (h : isSteadyText d false cs = true)
    (hrest : isSteadyText d false rest = true) (hboth : isSteadyText d false (cs ++ rest) = true)
    {batches : List (List Row)} (hb : batchesOfText d size false cs = batches.map .ok) :
    batchesOfText d size false (cs ++ rest) = batches.map .ok ++ batchesOfText d size false rest := by
  rw [batchesOfText_eq hs false h] at hb
  rw [batchesOfText_eq hs false hrest, batchesOfText_eq hs false hboth]
  change plainBatches size (records d none [] [] (cs ++ rest)) = _
  rw [records_append hend hclosed]
  exact plainBatches_append hs hdvd hb

end QueryPlan.Csv
