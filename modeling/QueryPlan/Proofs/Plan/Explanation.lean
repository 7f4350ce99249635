import QueryPlan.Proofs.Csv.Digits
import QueryPlan.Proofs.Plan.Coherence
/-!
# Explanations as trees

An explanation has the nodes of its plan one below the other, each two blanks further in than the one
above. It can be read back line by line exactly when no display holds a line feed. Displays write
paths, names of columns and texts as they are, so that comes down to these. Where it can be read back,
the explanation of a query is left of the one of the next step by taking off a line and a level.
-/
namespace QueryPlan

namespace Text
variable {s t : String} {items : List String}

def HasFeed (s : String) : Prop :=
  '\n' ∈ s.toList

instance (s : String) : Decidable (HasFeed s) :=
  inferInstanceAs (Decidable ('\n' ∈ s.toList))

def lines (s : String) : List String :=
  (s.toList.splitOn '\n').map String.ofList

def unindent (line : String) : String :=
  match line.toList with
  | ' ' :: ' ' :: rest => String.ofList rest
  | _ => line

/-- A text without its first line, and one level further out. -/
def outdented (s : String) : String :=
  "\n".intercalate ((lines s).tail.map unindent)

@[simp] theorem hasFeed_append : HasFeed (s ++ t) ↔ HasFeed s ∨ HasFeed t := by
  simp [HasFeed]

theorem hasFeed_commaSeparated : HasFeed (commaSeparated items) ↔ ∃ t ∈ items, HasFeed t := by
  unfold HasFeed
  cases items with
  | nil => simp [commaSeparated]
  | cons item items => simp [toList_commaSeparated_cons]

theorem digitChar_ne_feed (n : Nat) : Nat.digitChar (n % 16) ≠ '\n' := by
  have hlt : n % 16 < 16 := Nat.mod_lt n (by decide)
  generalize n % 16 = k at hlt ⊢
  revert k
  decide

theorem not_feed_hexDigits (width n : Nat) : '\n' ∉ hexDigits width n := by
  induction width generalizing n with
  | zero => simp [hexDigits]
  | succ width ih => simp [hexDigits, ih, (digitChar_ne_feed n).symm]

theorem not_feed_escape {mark c : Char} (hm : mark ≠ '\n') : '\n' ∉ escape mark c := by
  unfold escape
  split
  · next h =>
    rcases h with rfl | rfl
    · simp [hm.symm]
    · simp
  · split
    · simp
    · split
      · simp
      · next hn =>
        split
        · simp
        · split
          · simp [Ne.symm hn]
          · split
            · simp [not_feed_hexDigits]
            · split <;> simp [not_feed_hexDigits]

theorem not_hasFeed_quoted (s : String) : ¬ HasFeed (quoted s) := by
  have hm : quoteMark s.toList ≠ '\n' := by
    unfold quoteMark
    split <;> decide
  simp [HasFeed, quotedChars, hm.symm, not_feed_escape hm]

theorem not_hasFeed_quotedList (items : List String) : ¬ HasFeed (quotedList items) := by
  rw [quotedList, hasFeed_append, hasFeed_append, hasFeed_commaSeparated]
  rintro ((h | ⟨t, ht, h⟩) | h)
  · exact absurd h (by decide)
  · obtain ⟨s, -, rfl⟩ := List.mem_map.1 ht
    exact not_hasFeed_quoted s h
  · exact absurd h (by decide)

theorem not_mem_of_mem_splitOn {c : Char} {cs part : List Char} (h : part ∈ List.splitOn c cs) :
    c ∉ part := by
  induction cs generalizing part with
  | nil =>
    obtain rfl := List.mem_singleton.1 h
    exact List.not_mem_nil
  | cons x cs ih =>
    rw [List.splitOn_eq_splitOnP, List.splitOnP_cons_eq_if_modifyHead, ← List.splitOn_eq_splitOnP] at h
    split at h
    · rcases List.mem_cons.1 h with rfl | h
      · simp
      · exact ih h
    · next hx =>
      -- the character goes to the first part of the rest
      cases hr : List.splitOn c cs with
      | nil => simp [hr] at h
      | cons first rest =>
        rw [hr, List.modifyHead_cons, List.mem_cons] at h
        rcases h with rfl | h
        · have hfirst : c ∉ first := ih (by simp [hr])
          simp only [List.mem_cons, not_or]
          exact ⟨fun heq => hx (by simp [heq]), hfirst⟩
        · exact ih (by simp [hr, h])

theorem not_hasFeed_of_mem_lines (h : t ∈ lines s) : ¬ HasFeed t := by
  obtain ⟨part, hp, rfl⟩ := List.mem_map.1 h
  simpa [HasFeed] using not_mem_of_mem_splitOn hp

theorem lines_append (h : ¬ HasFeed s) (t : String) : lines (s ++ "\n" ++ t) = s :: lines t := by
  unfold lines
  rw [String.toList_append, String.toList_append, List.append_assoc]
  exact (congrArg _ (List.splitOn_append_cons_self_of_not_mem h t.toList)).trans (by simp)

/-- What is put together from ended lines without line feeds splits into them and an empty tail. -/
theorem lines_join (h : ∀ s ∈ items, ¬ HasFeed s) :
    lines (String.join (items.map fun s => s ++ "\n")) = items ++ [""] := by
  induction items with
  | nil => rfl
  | cons s items ih =>
    obtain ⟨hs, hitems⟩ := List.forall_mem_cons.1 h
    rw [List.map_cons, String.join_cons, lines_append hs, ih hitems, List.cons_append]

theorem intercalate_append_empty (items : List String) :
    "\n".intercalate (items ++ [""]) = String.join (items.map fun s => s ++ "\n") := by
  apply String.toList_inj.1
  rw [String.toList_intercalate]
  induction items with
  | nil => rfl
  | cons s items ih =>
    cases items with
    | nil => simp
    | cons next items =>
      rw [List.cons_append, List.cons_append, List.map_cons, List.map_cons, List.intercalate_cons_cons,
        ← List.map_cons, ← List.cons_append, ih]
      simp

end Text

namespace Expr

def written : Expr → List String
  | .column name => [name]
  | .text value => [value]
  | .integer _ => []
  | .logic _ left right | .arith _ left right => left.written ++ right.written
  | .aggregation _ argument => argument.written

theorem hasFeed_display_iff (e : Expr) :
    Text.HasFeed e.display ↔ ∃ t ∈ e.written, Text.HasFeed t := by
  induction e with
  | column name => simp [display, written]
  | text value =>
    have hquote : ¬ Text.HasFeed "'" := by decide
    simp [display, written, hquote]
  | integer value =>
    have hint : ¬ Text.HasFeed (toString value.toInt) := by
      intro h
      rcases Csv.mem_toString h with h | h | h <;> exact absurd h (by decide)
    simpa [display, written] using hint
  | logic op left right ihl ihr =>
    have hop : ¬ Text.HasFeed op.symbol := by cases op <;> decide
    simp [display, written, hop, ihl, ihr, or_and_right, exists_or]
  | arith op left right ihl ihr =>
    have hop : ¬ Text.HasFeed op.symbol := by cases op <;> decide
    have hblank : ¬ Text.HasFeed " " := by decide
    simp [display, written, hop, hblank, ihl, ihr, or_and_right, exists_or]
  | aggregation func argument ih =>
    have hfunc : ¬ Text.HasFeed func.fieldName := by cases func <;> decide
    have hopen : ¬ Text.HasFeed "(" := by decide
    have hclose : ¬ Text.HasFeed ")" := by decide
    simp [display, written, hfunc, hopen, hclose, ih]

end Expr

namespace Plan
variable {p n : Plan} {depth : Nat} {line : String}

/-- The path, names and texts that a node displays as they are. The columns that a scan is asked for are
quoted. -/
def written : Plan → List String
  | .scan path _ _ _ => [path]
  | p => p.exprs.flatMap Expr.written

/-- Whether a line is the display of a node at a depth: all its leading blanks are the indentation, and
what follows them is the display. -/
structure ShowsNode (line : String) (depth : Nat) (n : Plan) : Prop where
  indentation : (line.toList.takeWhile (· == ' ')).length = 2 * depth
  display : String.ofList (line.toList.dropWhile (· == ' ')) = n.display

/-- Whether the explanation can be read back: but for an empty tail, its lines show the nodes of the plan
from the root down, each at its depth. -/
def ReadsBack (p : Plan) : Prop :=
  ∃ items, Text.lines p.explain = items ++ [""] ∧
    List.Forall₂ (fun line x => ShowsNode line x.2 x.1) items p.nodes.zipIdx

theorem hasFeed_displayAll_iff (exprs : List Expr) :
    Text.HasFeed (displayAll exprs) ↔ ∃ t ∈ exprs.flatMap Expr.written, Text.HasFeed t := by
  simp only [displayAll, Text.hasFeed_commaSeparated, List.mem_map, exists_exists_and_eq_and,
    Expr.hasFeed_display_iff, List.mem_flatMap]
  tauto

theorem hasFeed_display_iff (p : Plan) :
    Text.HasFeed p.display ↔ ∃ t ∈ p.written, Text.HasFeed t := by
  cases p with
  | scan path bound source columns =>
    have hfixed : ¬ Text.HasFeed "Scan: " ∧ ¬ Text.HasFeed ", projection=" := by decide
    have hcolumns : ¬ Text.HasFeed
        (if columns = [] then "None" else Text.quotedList columns) := by
      split
      · decide
      · exact Text.not_hasFeed_quotedList columns
    unfold display
    simp [written, hfixed, hcolumns]
  | projection input exprs derived =>
    have hfixed : ¬ Text.HasFeed "Projection: " := by decide
    unfold display
    simp [written, Plan.exprs, hfixed, hasFeed_displayAll_iff]
  | selection input predicate =>
    have hfixed : ¬ Text.HasFeed "Filter: " := by decide
    unfold display
    simp [written, Plan.exprs, hfixed, Expr.hasFeed_display_iff]
  | aggregate input groups aggregates derived =>
    have hfixed : ¬ Text.HasFeed "Aggregate: groupExpr=" ∧ ¬ Text.HasFeed ", aggregateExpr=" := by
      decide
    unfold display
    simp [written, Plan.exprs, hfixed, hasFeed_displayAll_iff, or_and_right, exists_or]

@[simp] theorem toList_indent (depth : Nat) :
    (indent depth).toList = List.replicate (2 * depth) ' ' := by
  simp [indent]

theorem not_hasFeed_indent (depth : Nat) : ¬ Text.HasFeed (indent depth) := by
  simp [Text.HasFeed]

theorem linesFrom_eq_map (p : Plan) (depth : Nat) :
    p.linesFrom depth = (p.nodes.zipIdx depth).map fun x => indent x.2 ++ x.1.display := by
  induction p generalizing depth with
  | scan => rfl
  | projection input _ _ ih | selection input _ ih | aggregate input _ _ _ ih =>
    simp [linesFrom, nodes, ih]

theorem explain_eq_join (p : Plan) :
    p.explain = String.join (p.nodes.zipIdx.map fun x => indent x.2 ++ x.1.display ++ "\n") := by
  rw [explain, linesFrom_eq_map, List.map_map]
  rfl

theorem not_hasFeed_of_mem_linesFrom (h : ∀ n ∈ p.nodes, ¬ Text.HasFeed n.display)
    (hl : line ∈ p.linesFrom depth) : ¬ Text.HasFeed line := by
  rw [linesFrom_eq_map] at hl
  obtain ⟨⟨n, i⟩, hn, rfl⟩ := List.mem_map.1 hl
  simp [not_hasFeed_indent, h n (List.fst_mem_of_mem_zipIdx hn)]

/-- Every display starts with the name of its operator, so that no blank in front belongs to it. -/
theorem exists_display_eq_cons (n : Plan) : ∃ c rest, n.display.toList = c :: rest ∧ c ≠ ' ' := by
  unfold display
  cases n with
  | scan | projection | selection | aggregate =>
    simp only [String.toList_append, List.append_assoc]
    exact ⟨_, _, rfl, by decide⟩

theorem showsNode_indent (n : Plan) (depth : Nat) :
    ShowsNode (indent depth ++ n.display) depth n := by
  obtain ⟨c, rest, hd, hc⟩ := exists_display_eq_cons n
  constructor
  · simp [hd, hc]
  · simp [hd, hc, ← String.toList_inj]

theorem readsBack_iff (p : Plan) : p.ReadsBack ↔ ∀ n ∈ p.nodes, ¬ Text.HasFeed n.display := by
  constructor
  · rintro ⟨items, hlines, hshown⟩ n hn hfeed
    obtain ⟨i, hi, rfl⟩ := List.getElem_of_mem hn
    have hitem : i < items.length := by simpa [hshown.length_eq] using hi
    have hs := hshown.get hitem (by simpa using hi)
    have hline : items[i] ∈ Text.lines p.explain := by simp [hlines]
    refine Text.not_hasFeed_of_mem_lines hline ?_
    simp only [List.get_eq_getElem, List.getElem_zipIdx] at hs
    rw [← hs.display, Text.HasFeed, String.toList_ofList] at hfeed
    exact (List.dropWhile_sublist _).subset hfeed
  · intro h
    refine ⟨p.linesFrom 0, Text.lines_join fun s hs => not_hasFeed_of_mem_linesFrom h hs, ?_⟩
    rw [linesFrom_eq_map, List.forall₂_map_left_iff, List.forall₂_same]
    exact fun x _ => showsNode_indent x.1 x.2

theorem unindent_indent (depth : Nat) (s : String) :
    Text.unindent (indent (depth + 1) ++ s) = indent depth ++ s := by
  unfold Text.unindent
  simp [Nat.mul_succ, List.replicate_succ, ← String.toList_inj]

theorem map_unindent_linesFrom (p : Plan) (depth : Nat) :
    (p.linesFrom (depth + 1)).map Text.unindent = p.linesFrom depth := by
  rw [linesFrom_eq_map, linesFrom_eq_map, List.zipIdx_succ, List.map_map, List.map_map]
  exact List.map_congr_left fun x _ => unindent_indent x.2 x.1.display

theorem outdented_explain {input : Plan} (hnodes : p.nodes = p :: input.nodes)
    (h : ∀ n ∈ p.nodes, ¬ Text.HasFeed n.display) : Text.outdented p.explain = input.explain := by
  have hlines : p.linesFrom 0 = (indent 0 ++ p.display) :: input.linesFrom 1 := by
    rw [linesFrom_eq_map, hnodes, List.zipIdx_cons, List.map_cons, ← linesFrom_eq_map]
  have hsplit : Text.lines p.explain = p.linesFrom 0 ++ [""] :=
    Text.lines_join fun s hs => not_hasFeed_of_mem_linesFrom h hs
  rw [Text.outdented, hsplit, hlines, List.cons_append, List.tail_cons, List.map_append,
    map_unindent_linesFrom]
  exact Text.intercalate_append_empty _

/-- The explanation of a plan is its nodes one below the other, it can be read back exactly when no
display has a line feed, and then the last step of a query can be taken off. -/
theorem explain_tree (p : Plan) :
    p.explain = String.join (p.nodes.zipIdx.map fun x => indent x.2 ++ x.1.display ++ "\n") ∧
    (p.ReadsBack ↔ ∀ n ∈ p.nodes, ¬ Text.HasFeed n.display) ∧
    (∀ n ∈ p.nodes, Text.HasFeed n.display ↔ ∃ t ∈ n.written, Text.HasFeed t) ∧
    ∀ (s : Step) (log : List LogRecord) (r : Query), Query.step ⟨p⟩ s = ⟨log, .ok r⟩ →
      (∀ n ∈ r.plan.nodes, ¬ Text.HasFeed n.display) → Text.outdented r.explain = p.explain :=
  ⟨explain_eq_join p, readsBack_iff p, fun n _ => hasFeed_display_iff n,
    fun _ _ _ hs h => outdented_explain (Query.supports_of_step hs).1.nodes h⟩

private def notes : Plan :=
  ofFile "notes.csv" ⟨[⟨"a", .utf8, false⟩]⟩

private def matching (text : String) : Plan :=
  .selection notes (.logic .eq (.column "a") (.text text))

/-- A filter is taken off the explanation. With a text of two lines it cannot be read back. -/
theorem matching_taken_off : ∃ log log',
    Query.step ⟨notes⟩ (.filter (.logic .eq (.column "a") (.text "x"))) =
      ⟨log, .ok ⟨matching "x"⟩⟩ ∧
    (matching "x").ReadsBack ∧ Text.outdented (matching "x").explain = notes.explain ∧
    Query.step ⟨notes⟩ (.filter (.logic .eq (.column "a") (.text "x\ny"))) =
      ⟨log', .ok ⟨matching "x\ny"⟩⟩ ∧
    ¬ (matching "x\ny").ReadsBack := by
  have hstep : Query.step ⟨notes⟩ (.filter (.logic .eq (.column "a") (.text "x"))) =
    ⟨_, .ok ⟨matching "x"⟩⟩ := rfl
  have hstep' : Query.step ⟨notes⟩ (.filter (.logic .eq (.column "a") (.text "x\ny"))) =
    ⟨_, .ok ⟨matching "x\ny"⟩⟩ := rfl
  obtain ⟨-, hreads, hwritten, -⟩ := explain_tree (matching "x")
  obtain ⟨-, hreads', hwritten', -⟩ := explain_tree (matching "x\ny")
  have hclean : ∀ n ∈ (matching "x").nodes, ¬ Text.HasFeed n.display := by
    intro n hn
    rw [hwritten n hn]
    simp only [matching, notes, ofFile, nodes, List.mem_cons, List.not_mem_nil, or_false] at hn
    rcases hn with rfl | rfl <;> decide
  refine ⟨_, _, hstep, hreads.2 hclean, (explain_tree notes).2.2.2 _ _ _ hstep hclean, hstep', ?_⟩
  rw [hreads']
  exact fun h => h _ List.mem_cons_self ((hwritten' _ List.mem_cons_self).2 (by decide))

end Plan
end QueryPlan
