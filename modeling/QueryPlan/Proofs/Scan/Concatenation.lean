import QueryPlan.Proofs.Csv.Lookahead
import QueryPlan.Proofs.Csv.StrictJoining
import QueryPlan.Proofs.Scan.Failure
import QueryPlan.Proofs.Scan.Records
/-!
# Scans of concatenated files

A file whose records fill its batches can be followed by another one. The frames of both follow each
other, and where the first file fails the second is not looked at. That takes a first file that ends
where a line does, outside quotes, and texts in which no row is read again or lost; where the grammar
is strict, its blank rows have to stand aside.
-/
namespace QueryPlan
namespace Csv

/-- A text that ends between two lines, outside quotes, with records that fill batches of a size. -/
structure FillsBatches (d : Char) (size : Nat) (text : List Char) : Prop where
  lineEnded : LineEnded text
  closed : none ∉ records d none [] [] text
  full : size ∣ (records d none [] [] text).length

instance (d : Char) (size : Nat) (text : List Char) : Decidable (FillsBatches d size text) :=
  decidable_of_iff (LineEnded text ∧ none ∉ records d none [] [] text ∧
      size ∣ (records d none [] [] text).length)
    ⟨fun h => ⟨h.1, h.2.1, h.2.2⟩, fun h => ⟨h.lineEnded, h.closed, h.full⟩⟩

/-- What it takes for a text to begin with the same batches in front of another one. -/
def KeepsBatches (d : Char) (text rest : List Char) : Prop :=
  match Grammar.ofDelimiter d with
  | .lenient => d ≠ '\r' ∧ isSteadyText d false text = true
  | .strict => StrictInStep d false text ∧ ((records d none [] [] text).length = 1 →
      ∃ x, splitBlank (strictLines d .rowStart rest) = .ok x)

/-- What it takes for the batches of two texts to follow each other. -/
def JoinsBatches (d : Char) (text rest : List Char) : Prop :=
  match Grammar.ofDelimiter d with
  | .lenient => isSteadyText d false text = true ∧ isSteadyText d false rest = true ∧
      isSteadyText d false (text ++ rest) = true
  | .strict => StrictInStep d false text ∧ Unmarked (strictLines d .rowStart rest) ∧
      ∀ rows : List Row, strictRowsOf d false (text ++ rest) = rows.map .ok → BlanksAside rows

section Batches
variable {config : Config} {fields : Nat} {d : Char} {text rest : List Char}

theorem ne_quote_of_strict (h : Grammar.ofDelimiter d = .strict) : d ≠ '"' := by
  rintro rfl
  cases h

theorem isPrefix_batchesOf (hheader : config.hasHeader = false) (hd : d ≠ '\n')
    (hfill : FillsBatches d config.batchSize text) (hkeeps : KeepsBatches d text rest) :
    batchesOf config fields d text <+: batchesOf config fields d (text ++ rest) := by
  have hs := config.batchSize_pos
  rw [batchesOf, batchesOf, hheader]
  rw [KeepsBatches] at hkeeps
  cases hg : Grammar.ofDelimiter d with
  | lenient =>
    rw [hg] at hkeeps
    obtain ⟨hr, hsteady⟩ := hkeeps
    exact isPrefix_batchesOfText hs ⟨hd, hr⟩ hfill.lineEnded hfill.closed hfill.full hsteady rest
  | strict =>
    rw [hg] at hkeeps
    obtain ⟨hstep, hrest⟩ := hkeeps
    exact isPrefix_strictBatches hs (ne_quote_of_strict hg) hstep.null hfill.lineEnded hfill.closed
      hfill.full (hstep.mark rfl) hstep.aside hstep.filled rest hrest

theorem batchesOf_append (hheader : config.hasHeader = false)
    (hfill : FillsBatches d config.batchSize text) (hjoins : JoinsBatches d text rest)
    {batches batches' : List (List Row)} {width : Nat}
    (hb : batchesOf config fields d text = batches.map .ok)
    (hb' : batchesOf config fields d rest = batches'.map .ok)
    (hw : ∀ row ∈ batches.flatten.head?, row.length = width)
    (hw' : ∀ row ∈ batches'.flatten.head?, row.length = width) :
    batchesOf config fields d (text ++ rest) = (batches ++ batches').map .ok := by
  have hs := config.batchSize_pos
  rw [batchesOf, hheader] at hb hb' ⊢
  rw [JoinsBatches] at hjoins
  cases hg : Grammar.ofDelimiter d with
  | lenient =>
    rw [hg] at hjoins hb hb'
    obtain ⟨hsteady, hrest, hboth⟩ := hjoins
    dsimp only at hb hb' ⊢
    rw [batchesOfText_append hs hfill.lineEnded hfill.closed hfill.full hsteady hrest hboth hb, hb',
      List.map_append]
  | strict =>
    rw [hg] at hjoins hb hb'
    obtain ⟨hstep, hmark, haside⟩ := hjoins
    exact strictBatches_append hs (ne_quote_of_strict hg) hstep.null hfill.lineEnded hfill.closed
      hfill.full hstep.filled (hstep.mark rfl) hmark haside hb hb' hw hw'

theorem readBatches_of_isPrefix {g : Grammar} {schema expected : Schema} {e : ReadError}
    {batches more : List (Except ReadError (List Row))}
    (h : readBatches g schema expected batches = .error e) (hp : batches <+: more) :
    readBatches g schema expected more = .error e := by
  obtain ⟨others, rfl⟩ := hp
  have hne : batches ≠ [] := by
    rintro rfl
    cases h
  have hwidth : fileWidth (batches ++ others) = fileWidth batches := by
    obtain ⟨batch, rest, rfl⟩ := List.exists_cons_of_ne_nil hne
    cases batch with
    | error e => rfl
    | ok rows => cases rows <;> rfl
  obtain ⟨before, batch, after, hs, hb, hf⟩ := CsvSource.readBatches_eq_error_iff.1 h
  refine CsvSource.readBatches_eq_error_iff.2 ⟨before, batch, after ++ others, ?_, ?_⟩
  · rw [hs, List.append_assoc, List.cons_append]
  · rw [hwidth]
    exact ⟨hb, hf⟩

end Batches
end Csv

namespace CsvSource
open Csv
variable {s : CsvSource} {P : List String} {t u : String} {d : Char}

/-- A file without a mark comes after one that has no header and fills its batches. -/
structure Continues (s : CsvSource) (t u : String) : Prop where
  header : s.config.hasHeader = false
  mark : u.toList.head? ≠ some byteOrderMark
  fills : ∀ d, s.config.delimiter = String.singleton d →
    FillsBatches d s.config.batchSize (textFor d t)

/-- The frames of two files follow each other in those of both files as one. -/
def JoinsFrames (s : CsvSource) (P : List String) (t u : String) : Prop :=
  ∀ fs gs, (s.scan (everywhere t) P).result = .ok fs → (s.scan (everywhere u) P).result = .ok gs →
    (s.scan (everywhere (t ++ u)) P).result = .ok (fs ++ gs)

/-- What fails in the first file fails in both files as one. -/
def KeepsFailure (s : CsvSource) (P : List String) (t u : String) : Prop :=
  ∀ e, (s.scan (everywhere t) P).result = .error e →
    (s.scan (everywhere (t ++ u)) P).result = .error e

theorem read_everywhere_of_delimiter (h : ∀ d, s.config.delimiter = String.singleton d → d = '\n')
    (expected : Schema) (path : String) : s.read expected (everywhere t path) = malformed := by
  by_cases hn : s.config.delimiter = "\n"
  · rw [read, if_pos hn]
    rfl
  · rw [read, if_neg hn]
    change readFile s.config s.schema expected t.toUTF8 = _
    rw [readFile]
    split
    · next d text hd =>
      have hs := (delimited?_eq_some_iff.1 hd).1
      rw [h d hs] at hs
      exact absurd hs hn
    · rfl

theorem eq_of_delimiter {d d' : Char} (hd : s.config.delimiter = String.singleton d)
    (hd' : s.config.delimiter = String.singleton d') : d = d' := by
  simpa using hd.symm.trans hd'

theorem joinsFrames_of (h : s.Continues t u)
    (hjoins : ∀ d, s.config.delimiter = String.singleton d →
      JoinsBatches d (textFor d t) u.toList) : s.JoinsFrames P t u := by
  intro fs gs hf hg
  obtain ⟨hr, batches, hb, hw, hframes⟩ := scan_eq_ok_iff_batches.1 hf
  obtain ⟨-, batches', hb', hw', hframes'⟩ := scan_eq_ok_iff_batches.1 hg
  obtain ⟨d, text, ht, hbatches⟩ := batches?_eq_some_iff.1 hb
  obtain ⟨d', rest, hu, hbatches'⟩ := batches?_eq_some_iff.1 hb'
  obtain ⟨hd, hn, rfl⟩ := text?_everywhere.1 ht
  obtain ⟨hd', -, rfl⟩ := text?_everywhere.1 hu
  obtain rfl := eq_of_delimiter hd hd'
  rw [textFor_of_head? h.mark] at hbatches'
  have hboth := batchesOf_append h.header (h.fills d hd) (hjoins d hd) hbatches hbatches' hw hw'
  refine scan_eq_ok_iff_batches.2 ⟨hr, batches ++ batches', ?_, ?_, ?_⟩
  · refine batches?_eq_some_iff.2 ⟨d, _, text?_everywhere.2 ⟨hd, hn, rfl⟩, ?_⟩
    rw [textFor_append t h.mark, hboth]
  · rw [List.flatten_append]
    exact forall_head?_append hw hw'
  · exact List.rel_append hframes hframes'

theorem keepsFailure_of (h : s.Continues t u)
    (hkeeps : ∀ d, s.config.delimiter = String.singleton d →
      KeepsBatches d (textFor d t) u.toList) : s.KeepsFailure P t u := by
  intro e he
  by_cases hr : s.Resolves P
  · obtain ⟨e, rfl, hread⟩ := hr.scan_eq_error_iff.1 he
    refine hr.scan_eq_error_iff.2 ⟨e, rfl, ?_⟩
    by_cases hd : ∀ d, s.config.delimiter = String.singleton d → d = '\n'
    · rw [read_everywhere_of_delimiter hd] at hread ⊢
      exact hread
    · obtain ⟨d, hd⟩ := not_forall.1 hd
      obtain ⟨hd, hn⟩ := Classical.not_imp.1 hd
      rw [read_of_text (text?_everywhere.2 ⟨hd, hn, rfl⟩)] at hread ⊢
      rw [textFor_append t h.mark]
      exact readBatches_of_isPrefix hread (isPrefix_batchesOf h.header hn (h.fills d hd) (hkeeps d hd))
  · obtain ⟨e', es, hfail⟩ := scan_of_not_resolves hr
    rw [hfail] at he ⊢
    exact he

/-- The frames of a file come before those of the file that continues it, and what fails in it is not
masked, when no row is read again or lost where they meet. -/
theorem scan_append (h : s.Continues t u) (P : List String) :
    ((∀ d, s.config.delimiter = String.singleton d →
      JoinsBatches d (textFor d t) u.toList) → s.JoinsFrames P t u) ∧
    ((∀ d, s.config.delimiter = String.singleton d →
      KeepsBatches d (textFor d t) u.toList) → s.KeepsFailure P t u) :=
  ⟨joinsFrames_of h, keepsFailure_of h⟩

private theorem continues_of (hd : s.config.delimiter = String.singleton d)
    (hheader : s.config.hasHeader = false) (hmark : u.toList.head? ≠ some byteOrderMark)
    (hfill : FillsBatches d s.config.batchSize (textFor d t)) : s.Continues t u :=
  ⟨hheader, hmark, fun _ hd' => eq_of_delimiter hd hd' ▸ hfill⟩

private def couples (delimiter : Char) (size : Nat) [NeZero size] : CsvSource :=
  ⟨⟨[⟨"a", .utf8, true⟩, ⟨"b", .utf8, true⟩]⟩, "n.csv",
    ⟨size, false, String.singleton delimiter, Nat.pos_of_neZero size⟩⟩

/-- A record that lacks its first cell comes after a whole one, and after one that is too wide. -/
theorem couples_appended :
    ((couples ';' 1).scan (everywhere ("x;1\r\n" ++ ";2\n")) []).result = .ok
      ([⟨[⟨.text "a", "string", [.text "x"]⟩, ⟨.text "b", "string", [.text "1"]⟩]⟩] ++
       [⟨[⟨.text "a", "string", [.missing]⟩, ⟨.text "b", "string", [.text "2"]⟩]⟩]) ∧
    ((couples 'é' 1).scan (everywhere ("xéyéz\n" ++ "é2\n")) []).result =
      .error (.read "n.csv" (.source (.width 2 3))) := by
  constructor
  · have hcontinues : (couples ';' 1).Continues "x;1\r\n" ";2\n" :=
      continues_of rfl rfl (by decide) (by decide +kernel)
    have hjoins : JoinsBatches ';' "x;1\r\n".toList ";2\n".toList :=
      ⟨by decide +kernel, by decide +kernel, by decide +kernel⟩
    refine (scan_append hcontinues []).1 (fun d hd => ?_) _ _ (by decide +kernel) (by decide +kernel)
    rwa [← eq_of_delimiter rfl hd]
  · have hcontinues : (couples 'é' 1).Continues "xéyéz\n" "é2\n" :=
      continues_of rfl rfl (by decide) (by decide +kernel)
    have hrows : strictLines 'é' .rowStart "xéyéz\n".toList = [["x", "y", "z"]].map .ok := by
      decide +kernel
    have hrecords : plainRecords 'é' false "xéyéz\n".toList = [some ["x", "y", "z"]] := by
      decide +kernel
    have hstep : StrictInStep 'é' false "xéyéz\n".toList := by
      refine ⟨by decide, fun _ row h => ?_, fun rows h => ?_, ?_⟩
      · rw [hrows] at h
        cases h
        decide +kernel
      · rw [map_ok_injective (h.symm.trans hrows)]
        exact blanksAside_of_filled (by decide)
      · rw [hrecords]
        simp [isBlankRow]
    have hkeeps : KeepsBatches 'é' "xéyéz\n".toList "é2\n".toList :=
      ⟨hstep, fun _ => ⟨some (["", "2"], []), by decide +kernel⟩⟩
    refine (scan_append hcontinues []).2 (fun d hd => ?_) _ (by decide +kernel)
    rwa [← eq_of_delimiter rfl hd]

/-- A delimiter after a carriage return and a blank line is lost with the cell before it. A blank row
in a strict text takes up a place in a batch, and a fault in the second row comes before what fails in
the first. -/
theorem appended_not_kept :
    ((couples ';' 1).Continues "x;1\r\r" ";2\r" ∧
      ¬ (couples ';' 1).JoinsFrames [] "x;1\r\r" ";2\r") ∧
    ((couples 'é' 2).Continues "xé1\nyé2\n\n" "zé3\nwé4\n" ∧
      ¬ (couples 'é' 2).JoinsFrames [] "xé1\nyé2\n\n" "zé3\nwé4\n") ∧
    ((couples 'é' 1).Continues "xéyéz\n" "\"y\"z\n" ∧
      ¬ (couples 'é' 1).KeepsFailure [] "xéyéz\n" "\"y\"z\n") := by
  refine ⟨⟨continues_of rfl rfl (by decide) (by decide +kernel), fun h => ?_⟩,
    ⟨continues_of rfl rfl (by decide) (by decide +kernel), fun h => ?_⟩,
    continues_of rfl rfl (by decide) (by decide +kernel), fun h => ?_⟩
  · have hboth := h
      [⟨[⟨.text "a", "string", [.text "x"]⟩, ⟨.text "b", "string", [.text "1"]⟩]⟩]
      [⟨[⟨.text "a", "string", [.missing]⟩, ⟨.text "b", "string", [.text "2"]⟩]⟩]
      (by decide +kernel) (by decide +kernel)
    revert hboth
    decide +kernel
  · have hboth := h
      [⟨[⟨.text "a", "string", [.text "x", .text "y"]⟩,
        ⟨.text "b", "string", [.text "1", .text "2"]⟩]⟩]
      [⟨[⟨.text "a", "string", [.text "z", .text "w"]⟩,
        ⟨.text "b", "string", [.text "3", .text "4"]⟩]⟩]
      (by decide +kernel) (by decide +kernel)
    revert hboth
    decide +kernel
  · have hboth := h (.read "n.csv" (.source (.width 2 3))) (by decide +kernel)
    revert hboth
    decide +kernel

end CsvSource
end QueryPlan
