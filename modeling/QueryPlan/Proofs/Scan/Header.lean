import QueryPlan.Proofs.Csv.Header
import QueryPlan.Proofs.Scan.Concatenation
/-!
# Files behind a header line

A header line is skipped, and the text behind it is read as it is alone, if the header shifts no block
in the middle of a blank start and no row is read again. In a single block nothing is shifted, and
rows that are read again matter only where one of the two batches runs out of room. In a strict text
nothing of that can happen, but there the header has to keep the limit of cells, and the text alone
must not lose a mark.
-/
namespace QueryPlan.CsvSource
open Csv

def withHeader (s : CsvSource) (hasHeader : Bool) : CsvSource :=
  { s with config := { s.config with hasHeader := hasHeader } }

/-- A header line without quotes, and a text without a mark. -/
structure Heads (header body : String) : Prop where
  line : IsPlainLine header.toList
  mark : body.toList.head? ≠ some byteOrderMark

/-- What it takes where the grammar is strict: no cell of the header is too long, and the first row of
the text does not start with a mark. -/
def HeadsStrictly (s : CsvSource) (header body : String) : Prop :=
  ∀ d, s.config.delimiter = String.singleton d → Grammar.ofDelimiter d = .strict →
    ShortHeader d header.toList ∧ Unmarked (strictLines d .rowStart body.toList)

def scanBehind (s : CsvSource) (header body : String) (P : List String) :
    Outcome ScanError (List Frame) :=
  (s.withHeader true).scan (everywhere (header ++ "\n" ++ body)) P

def scanAlone (s : CsvSource) (body : String) (P : List String) :
    Outcome ScanError (List Frame) :=
  (s.withHeader false).scan (everywhere body) P

def ReadsAgain (s : CsvSource) (body : String) : Prop :=
  ∃ d, s.config.delimiter = String.singleton d ∧ Grammar.ofDelimiter d = .lenient ∧
    (Reader.ofPlace (Place.blockStart body.toList)).ReadsAgain d

variable {s : CsvSource} {P : List String} {header body : String} {d : Char} {exception : Prop}

@[simp] theorem schema_withHeader (b : Bool) : (s.withHeader b).schema = s.schema := rfl

@[simp] theorem path_withHeader (b : Bool) : (s.withHeader b).path = s.path := rfl

@[simp] theorem unresolved_withHeader (b : Bool) :
    (s.withHeader b).unresolved P = s.unresolved P := rfl

@[simp] theorem projected_withHeader (b : Bool) :
    (s.withHeader b).projected P = s.projected P := rfl

theorem textFor_header (hbody : body.toList.head? ≠ some byteOrderMark) (d : Char) :
    textFor d (header ++ "\n" ++ body) = textFor d header ++ '\n' :: body.toList := by
  rw [textFor_append _ hbody, textFor_append header (by decide)]
  simp

theorem read_header (hbody : body.toList.head? ≠ some byteOrderMark)
    (h : ∀ d, s.config.delimiter = String.singleton d → SameUnless exception
      (batchesOf (s.withHeader true).config s.schema.width d
        (textFor d header ++ '\n' :: body.toList))
      (batchesOf (s.withHeader false).config s.schema.width d body.toList)) (expected : Schema) :
    let behind := (s.withHeader true).read expected (everywhere (header ++ "\n" ++ body) s.path)
    let alone := (s.withHeader false).read expected (everywhere body s.path)
    behind = alone ∨ exception ∧ (behind = malformed ∨ alone = malformed) := by
  intro behind alone
  by_cases hd : ∀ d, s.config.delimiter = String.singleton d → d = '\n'
  · left
    have hbehind : behind = malformed :=
      read_everywhere_of_delimiter (s := s.withHeader true) hd expected s.path
    have halone : alone = malformed :=
      read_everywhere_of_delimiter (s := s.withHeader false) hd expected s.path
    rw [hbehind, halone]
  · obtain ⟨d, hd⟩ := not_forall.1 hd
    obtain ⟨hd, hn⟩ := Classical.not_imp.1 hd
    have hbehind : behind = readBatches (.ofDelimiter d) s.schema expected
        (batchesOf (s.withHeader true).config s.schema.width d
          (textFor d header ++ '\n' :: body.toList)) := by
      rw [← textFor_header hbody]
      exact read_of_text (text?_everywhere.2 ⟨hd, hn, rfl⟩)
    have halone : alone = readBatches (.ofDelimiter d) s.schema expected
        (batchesOf (s.withHeader false).config s.schema.width d body.toList) := by
      rw [← textFor_of_head? hbody]
      exact read_of_text (text?_everywhere.2 ⟨hd, hn, rfl⟩)
    rw [hbehind, halone]
    exact (h d hd).readBatches

/-- A mark is taken off only where a strict text without a header starts with one. -/
theorem exists_of_takesMark {file : Except SourceFault ByteArray} (h : s.takesMark file = true) :
    s.config.hasHeader = false ∧ ∃ bytes d text, file = .ok bytes ∧
      delimited? s.config bytes = some (d, text) ∧ Grammar.ofDelimiter d = .strict ∧
      ¬ Unmarked (strictLines d .rowStart text) := by
  rw [takesMark, Option.any_eq_true] at h
  obtain ⟨⟨d, text⟩, hfile, h⟩ := h
  cases file with
  | error fault => cases hfile
  | ok bytes =>
    change Csv.takesMark s.config d text = true at h
    unfold Csv.takesMark at h
    split at h
    · next row rows hg hrows =>
      obtain ⟨hheader, hmarked⟩ := Bool.and_eq_true_iff.1 h
      refine ⟨by simpa using hheader, bytes, d, text, rfl, hfile, hg, fun hunmarked => ?_⟩
      rw [hunmarked row (by rw [hrows]; rfl)] at hmarked
      cases hmarked
    · cases h

theorem takesMark_withHeader_true (file : Except SourceFault ByteArray) :
    (s.withHeader true).takesMark file = false := by
  rw [Bool.eq_false_iff]
  intro h
  cases (exists_of_takesMark h).1

theorem HeadsStrictly.takesMark (hbody : body.toList.head? ≠ some byteOrderMark)
    (hstrict : s.HeadsStrictly header body) :
    (s.withHeader false).takesMark (everywhere body s.path) = false := by
  rw [Bool.eq_false_iff]
  intro h
  obtain ⟨-, bytes, d, text, hfile, htext, hg, hmarked⟩ := exists_of_takesMark h
  cases hfile
  obtain ⟨hd, ht⟩ := delimited?_eq_some_iff.1 htext
  rw [decode_toUTF8, Option.some.injEq] at ht
  apply hmarked
  rw [← ht, ← textFor, textFor_of_head? hbody]
  exact (hstrict d hd hg).2

theorem scanFile_malformed {expected : Schema} {file : Except SourceFault ByteArray}
    (h : s.read expected file = malformed) :
    (s.scanFile expected file).result = .error (.read s.path (.source .malformed)) := by
  rw [scanFile, h]
  rfl

/-- The names are resolved alike, and after that the file is read. -/
theorem scan_header_or (exception : Prop)
    (hmark : (s.withHeader false).takesMark (everywhere body s.path) = false)
    (h : ∀ expected,
      let behind := (s.withHeader true).read expected (everywhere (header ++ "\n" ++ body) s.path)
      let alone := (s.withHeader false).read expected (everywhere body s.path)
      behind = alone ∨ exception ∧ (behind = malformed ∨ alone = malformed)) :
    s.scanBehind header body P = s.scanAlone body P ∨ exception ∧
      ((s.scanBehind header body P).result = .error (.read s.path (.source .malformed)) ∨
        (s.scanAlone body P).result = .error (.read s.path (.source .malformed))) := by
  unfold scanBehind scanAlone scan
  simp only [schema_withHeader, path_withHeader, unresolved_withHeader, projected_withHeader]
  cases s.unresolved P with
  | cons u us => exact .inl rfl
  | nil =>
    dsimp only
    cases s.schema.select (s.projected P) with
    | error u => exact .inl rfl
    | ok expected =>
      dsimp only
      rcases h expected with heq | ⟨hexception, hm | hm⟩
      · left
        have hcounted : ∀ frames, (s.withHeader true).counted
            (everywhere (header ++ "\n" ++ body) s.path) frames =
              (s.withHeader false).counted (everywhere body s.path) frames := by
          intro frames
          rw [counted, counted, hmark, takesMark_withHeader_true]
          rfl
        have hfile : (s.withHeader true).scanFile expected
            (everywhere (header ++ "\n" ++ body) s.path) =
              (s.withHeader false).scanFile expected (everywhere body s.path) := by
          rw [scanFile, scanFile, heq]
          simp only [hcounted, path_withHeader]
        rw [hfile]
      · refine .inr ⟨hexception, .inl ?_⟩
        exact scanFile_malformed hm
      · refine .inr ⟨hexception, .inr ?_⟩
        exact scanFile_malformed hm

theorem sameUnless_batchesOf (h : Heads header body) (hstrict : s.HeadsStrictly header body)
    (hd : s.config.delimiter = String.singleton d)
    (hlenient : Grammar.ofDelimiter d = .lenient → SameUnless exception
      (batchesOfText d s.config.batchSize true (textFor d header ++ '\n' :: body.toList))
      (batchesOfText d s.config.batchSize false body.toList)) :
    SameUnless exception
      (batchesOf (s.withHeader true).config s.schema.width d
        (textFor d header ++ '\n' :: body.toList))
      (batchesOf (s.withHeader false).config s.schema.width d body.toList) := by
  rw [batchesOf, batchesOf]
  cases hg : Grammar.ofDelimiter d with
  | lenient => exact hlenient hg
  | strict =>
    obtain ⟨hshort, hmark⟩ := hstrict d hd hg
    have htext : textFor d header = header.toList := by
      rw [textFor, hg]
      rfl
    have hbatches : strictBatches s.schema.width d s.config.batchSize true
        (textFor d header ++ '\n' :: body.toList) =
          strictBatches s.schema.width d s.config.batchSize false body.toList := by
      rw [htext]
      exact strictBatches_header s.schema.width s.config.batchSize h.line hshort hmark
    exact hbatches ▸ .same _

theorem scan_header_of_isSteady (h : Heads header body) (hstrict : s.HeadsStrictly header body)
    (hsteady : ∀ d, s.config.delimiter = String.singleton d → Grammar.ofDelimiter d = .lenient →
      isSteadyText d true (textFor d (header ++ "\n" ++ body)) = true ∧
        isSteadyText d false body.toList = true) :
    s.scanBehind header body P = s.scanAlone body P := by
  refine (scan_header_or False (hstrict.takesMark h.mark) fun expected => ?_).resolve_right fun h => h.1
  refine read_header h.mark (fun d hd => sameUnless_batchesOf h hstrict hd fun hg => ?_) expected
  obtain ⟨hall, hbody⟩ := hsteady d hd hg
  rw [textFor_header h.mark] at hall
  exact batchesOfText_header_of_isSteady s.config.batchSize_pos (h.line.textOf _) hall hbody ▸ .same _

theorem length_textOf_le (g : Grammar) (cs : List Char) : (g.textOf cs).length ≤ cs.length := by
  cases g with
  | strict => exact Nat.le_refl _
  | lenient =>
    cases cs with
    | nil => exact Nat.le_refl _
    | cons c cs =>
      rw [Grammar.textOf, dropMark]
      split <;> simp

theorem scan_header_of_length_le (h : Heads header body) (hstrict : s.HeadsStrictly header body)
    (hl : (header ++ "\n" ++ body).length ≤ blockSize) :
    s.scanBehind header body P = s.scanAlone body P ∨ s.ReadsAgain body ∧
      ((s.scanBehind header body P).result = .error (.read s.path (.source .malformed)) ∨
        (s.scanAlone body P).result = .error (.read s.path (.source .malformed))) := by
  refine scan_header_or _ (hstrict.takesMark h.mark) fun expected => ?_
  refine read_header h.mark (fun d hd => sameUnless_batchesOf h hstrict hd fun hg => ?_) expected
  have hlength : (textFor d header ++ '\n' :: body.toList).length ≤ blockSize := by
    have hmark := length_textOf_le (.ofDelimiter d) header.toList
    rw [String.length_append, String.length_append, show "\n".length = 1 from rfl] at hl
    rw [List.length_append, List.length_cons, String.length_toList, textFor]
    rw [String.length_toList] at hmark
    omega
  exact (batchesOfText_header (h.line.textOf _) hlength).imp fun hagain => ⟨d, hd, hg, hagain⟩

theorem not_readsAgain_of_isSteady
    (h : ∀ d, s.config.delimiter = String.singleton d → isSteadyText d false body.toList = true) :
    ¬ s.ReadsAgain body := by
  rintro ⟨d, hd, -, hagain⟩
  have hstart := start_standsFor (h d hd)
  exact hstart.not_readsAgain hagain

/-- A text is scanned behind a header line as it is alone, if the text is steady both ways. In a single
block it is so unless a row is read again and one of the scans finds no room for it. -/
theorem scan_header (s : CsvSource) (P : List String) (header body : String)
    (h : Heads header body) (hstrict : s.HeadsStrictly header body) :
    ((∀ d, s.config.delimiter = String.singleton d → Grammar.ofDelimiter d = .lenient →
        isSteadyText d true (textFor d (header ++ "\n" ++ body)) = true ∧
          isSteadyText d false body.toList = true) →
      s.scanBehind header body P = s.scanAlone body P) ∧
    ((header ++ "\n" ++ body).length ≤ blockSize →
      s.scanBehind header body P = s.scanAlone body P ∨ s.ReadsAgain body ∧
        ((s.scanBehind header body P).result = .error (.read s.path (.source .malformed)) ∨
          (s.scanAlone body P).result = .error (.read s.path (.source .malformed)))) ∧
    ((∀ d, s.config.delimiter = String.singleton d → isSteadyText d false body.toList = true) →
      ¬ s.ReadsAgain body) :=
  ⟨scan_header_of_isSteady h hstrict, scan_header_of_length_le h hstrict, not_readsAgain_of_isSteady⟩

private def listing (size : Nat) [NeZero size] : CsvSource :=
  ⟨⟨[⟨"a", .utf8, false⟩]⟩, "n.csv",
    ⟨size, false, String.singleton ',', Nat.pos_of_neZero size⟩⟩

/-- A header of another width is skipped, also where a row is read again and finds room. -/
theorem listing_behind_header :
    (listing 2).scanBehind "a,b" "x\n y\n" [] = (listing 2).scanAlone "x\n y\n" [] ∧
    ((listing 2).scanAlone "x\n y\n" []).result =
      .ok [⟨[⟨.text "a", "string", [.text "x", .text " y"]⟩]⟩] ∧
    ¬ (listing 2).ReadsAgain "x\n y\n" ∧
    (listing 3).scanBehind "a,b" "x\na\r b\n" [] = (listing 3).scanAlone "x\na\r b\n" [] := by
  have hsteady : isSteadyText ',' true "a,b\nx\n y\n".toList = true ∧
      isSteadyText ',' false "x\n y\n".toList = true := by decide +kernel
  have hline : IsPlainLine "a,b".toList := by decide +kernel
  have hlenient : ∀ size [NeZero size] body, (listing size).HeadsStrictly "a,b" body := by
    intro size _ body d hd hg
    rw [← eq_of_delimiter rfl hd] at hg
    cases hg
  obtain ⟨hequal, -, honce⟩ :=
    scan_header (listing 2) [] "a,b" "x\n y\n" ⟨hline, by decide⟩ (hlenient 2 _)
  obtain ⟨-, hroom, -⟩ :=
    scan_header (listing 3) [] "a,b" "x\na\r b\n" ⟨hline, by decide⟩ (hlenient 3 _)
  refine ⟨hequal fun d hd _ => ?_, by decide +kernel, honce fun d hd => ?_,
    (hroom (by decide)).resolve_right fun h => absurd h.2 (by decide +kernel)⟩
  · rwa [← eq_of_delimiter rfl hd]
  · rw [← eq_of_delimiter rfl hd]
    exact hsteady.2

/-- Behind a header there is room for a row that is read again until the batch is full, and without
one there is not. -/
theorem header_makes_room :
    Heads "a column of texts, in which a lone carriage return ends a line" "x\na\r b\n" ∧
    ((listing 20).scanBehind "a column of texts, in which a lone carriage return ends a line"
      "x\na\r b\n" []).result = .ok
        [⟨[⟨.text "a", "string", .text "x" :: List.replicate 19 (.text "a")⟩]⟩,
          ⟨[⟨.text "a", "string", [.text " b"]⟩]⟩] ∧
    ((listing 20).scanAlone "x\na\r b\n" []).result =
      .error (.read "n.csv" (.source .malformed)) := by
  exact ⟨⟨by decide +kernel, by decide⟩, by decide +kernel, by decide +kernel⟩

end QueryPlan.CsvSource
