import QueryPlan.Proofs.Csv.Reading
import QueryPlan.Proofs.Scan.Resolution
/-!
# Reading the content of a source

A source has a text when its delimiter is a single character other than a line feed, and the file
opens and decodes. Reading the source is then reading the batches of the text, one after the other;
without a text it fails in the same way for every projection.
-/
namespace QueryPlan.CsvSource
open Csv

/-- The delimiter and the characters of a file, if the source can make them out. -/
def text? (s : CsvSource) (file : Except SourceFault ByteArray) : Option (Char × List Char) :=
  (file.toOption.bind (delimited? s.config)).filter fun (delimiter, _) => delimiter ≠ '\n'

theorem delimited?_eq_some_iff {config : Config} {bytes : ByteArray} {d : Char} {text : List Char} :
    delimited? config bytes = some (d, text) ↔
      config.delimiter = String.singleton d ∧ decode (.ofDelimiter d) bytes = some text := by
  rw [← String.toList_inj, String.toList_singleton]
  unfold delimited?
  split
  · next delimiter hd =>
    rw [hd, Option.map_eq_some_iff]
    constructor
    · rintro ⟨text, ht, hp⟩
      cases hp
      exact ⟨rfl, ht⟩
    · rintro ⟨heq, ht⟩
      cases heq
      exact ⟨text, ht, rfl⟩
  · next hne => simpa using fun hd => absurd hd (hne d)

theorem text?_eq_some_iff {s : CsvSource} {file : Except SourceFault ByteArray} {d : Char}
    {text : List Char} : s.text? file = some (d, text) ↔ s.config.delimiter = String.singleton d ∧
      d ≠ '\n' ∧ ∃ bytes, file = .ok bytes ∧ decode (.ofDelimiter d) bytes = some text := by
  rw [text?, Option.filter_eq_some_iff]
  cases file with
  | error fault => simp [Except.toOption]
  | ok bytes =>
    simp only [Except.toOption, Option.bind_some, delimited?_eq_some_iff, decide_eq_true_eq,
      Except.ok.injEq, exists_eq_left']
    exact and_right_comm.trans and_assoc

theorem read_of_text {s : CsvSource} {expected : Schema} {file : Except SourceFault ByteArray}
    {d : Char} {text : List Char} (h : s.text? file = some (d, text)) :
    s.read expected file = readBatches (.ofDelimiter d) s.schema expected
      (batchesOf s.config s.schema.width d text) := by
  obtain ⟨hd, hn, bytes, rfl, ht⟩ := text?_eq_some_iff.1 h
  have hne : ¬ s.config.delimiter = "\n" := by
    rw [hd]
    intro heq
    have hl := congrArg String.toList heq
    rw [String.toList_singleton] at hl
    exact hn (List.cons.inj hl).1
  rw [read, if_neg hne]
  change readFile s.config s.schema expected bytes = _
  rw [readFile, delimited?_eq_some_iff.2 ⟨hd, ht⟩]

theorem read_of_text_none {s : CsvSource} {file : Except SourceFault ByteArray}
    (h : s.text? file = none) :
    ∃ fault, ∀ expected, s.read expected file = .error (.source fault) := by
  by_cases hn : s.config.delimiter = "\n"
  · refine ⟨.malformed, fun expected => ?_⟩
    rw [read, if_pos hn]
    rfl
  · cases file with
    | error fault =>
      refine ⟨fault, fun expected => ?_⟩
      rw [read, if_neg hn]
      rfl
    | ok bytes =>
      refine ⟨.malformed, fun expected => ?_⟩
      rw [read, if_neg hn]
      change readFile s.config s.schema expected bytes = _
      unfold readFile
      split
      · next d text hd =>
        obtain ⟨hdelimiter, ht⟩ := delimited?_eq_some_iff.1 hd
        have hne : d ≠ '\n' := by
          rintro rfl
          exact hn hdelimiter
        have hs : s.text? (.ok bytes) = some (d, text) :=
          text?_eq_some_iff.2 ⟨hdelimiter, hne, bytes, rfl, ht⟩
        rw [h] at hs
        cases hs
      · rfl

def everywhere (text : String) (_ : String) : Except SourceFault ByteArray :=
  .ok text.toUTF8

def single (type : DataType) (delimiter : String := ",") : CsvSource :=
  ⟨⟨[⟨"a", type, false⟩]⟩, "n.csv", { Config.standard with delimiter := delimiter }⟩

theorem decode_toUTF8 (g : Grammar) (text : String) :
    decode g text.toUTF8 = some (g.textOf text.toList) := by
  have hv : text.toUTF8.IsValidUTF8 := text.isValidUTF8
  rw [decode, String.fromUTF8?, dif_pos hv]
  rfl

def textFor (d : Char) (text : String) : List Char :=
  (Grammar.ofDelimiter d).textOf text.toList

theorem text?_everywhere {s : CsvSource} {path t : String} {d : Char} {text : List Char} :
    s.text? (everywhere t path) = some (d, text) ↔
      s.config.delimiter = String.singleton d ∧ d ≠ '\n' ∧ text = textFor d t := by
  rw [text?_eq_some_iff]
  refine and_congr_right fun _ => and_congr_right fun _ => ?_
  constructor
  · rintro ⟨bytes, hb, ht⟩
    cases hb
    rw [decode_toUTF8] at ht
    exact (Option.some.inj ht).symm
  · rintro rfl
    exact ⟨_, rfl, decode_toUTF8 _ t⟩

theorem dropMark_of_head? {rest : List Char} (h : rest.head? ≠ some byteOrderMark) :
    dropMark rest = rest := by
  cases rest with
  | nil => rfl
  | cons c rest => exact if_neg fun hc => h (by rw [hc]; rfl)

theorem textFor_of_head? {t : String} (h : t.toList.head? ≠ some byteOrderMark) (d : Char) :
    textFor d t = t.toList := by
  unfold textFor
  cases Grammar.ofDelimiter d with
  | lenient => exact dropMark_of_head? h
  | strict => rfl

theorem textFor_append (t : String) {u : String} (h : u.toList.head? ≠ some byteOrderMark)
    (d : Char) : textFor d (t ++ u) = textFor d t ++ u.toList := by
  unfold textFor
  rw [String.toList_append]
  cases Grammar.ofDelimiter d with
  | strict => rfl
  | lenient =>
    rw [Grammar.textOf, Grammar.textOf]
    cases t.toList with
    | nil => exact dropMark_of_head? h
    | cons c cs =>
      rw [List.cons_append, dropMark, dropMark]
      split <;> rfl

/-- A source that can be read has a text, and each batch of its rows becomes a frame. -/
theorem read_eq_ok_iff {s : CsvSource} {expected : Schema} {file : Except SourceFault ByteArray}
    {fs : List Frame} : s.read expected file = .ok fs ↔ ∃ d text, s.text? file = some (d, text) ∧
      List.Forall₂ (fun batch f => ∃ rows, batch = .ok rows ∧
        readBatch (.ofDelimiter d) s.schema expected
          (fileWidth (batchesOf s.config s.schema.width d text)) rows = .ok f)
        (batchesOf s.config s.schema.width d text) fs := by
  cases ht : s.text? file with
  | none =>
    obtain ⟨fault, hf⟩ := read_of_text_none ht
    rw [hf]
    simp
  | some dt =>
    obtain ⟨d, text⟩ := dt
    rw [read_of_text ht, readBatches, mapM_eq_ok_iff]
    simp only [bind_eq_ok_iff, Option.some.injEq, Prod.mk.injEq]
    constructor
    · intro h
      exact ⟨d, text, ⟨rfl, rfl⟩, h⟩
    · rintro ⟨d', text', ⟨rfl, rfl⟩, h⟩
      exact h

theorem Resolves.readBatch_eq_ok_iff {s : CsvSource} {P : List String} (hr : s.Resolves P)
    {g : Grammar} {fileWidth : Nat} {rows : List Row} {f : Frame} :
    readBatch g s.schema (s.expected P) fileWidth rows = .ok f ↔ fileWidth = s.schema.width ∧
      ∃ columns, readColumns g s.schema s.schema.width rows = .ok columns ∧
        missingField? ⟨columns⟩ (s.expected P) = none ∧
        f = Frame.restrict ⟨columns⟩ (s.expected P).names := by
  cases hc : readColumns g s.schema fileWidth rows with
  | error e =>
    rw [readBatch_of_columns_error hc]
    constructor
    · intro h
      cases h
    · rintro ⟨rfl, columns, h, -⟩
      rw [hc] at h
      cases h
  | ok columns =>
    by_cases hw : fileWidth = s.schema.width
    · subst hw
      rw [readBatch_of_columns (fields_expected s P) hr.nodup_expected hc]
      cases hm : missingField? ⟨columns⟩ (s.expected P) with
      | some f' =>
        refine ⟨fun h => (by cases h), ?_⟩
        rintro ⟨-, columns', h, hn, -⟩
        cases hc.symm.trans h
        rw [hm] at hn
        cases hn
      | none =>
        constructor
        · intro h
          cases h
          exact ⟨rfl, columns, hc, hm, rfl⟩
        · rintro ⟨-, columns', h, -, rfl⟩
          cases hc.symm.trans h
          rfl
    · rw [readBatch_of_width hc hw]
      exact ⟨fun h => (by cases h), fun h => absurd h.1 hw⟩

theorem missingField?_expected (frame : Frame) (s : CsvSource) (P : List String) :
    missingField? frame (s.expected P) =
      s.schema.fields.find? fun f => asks P f.name && (!f.nullable && frame.hasMissing f.name) := by
  rw [missingField?, fields_expected, List.find?_filter]
  simp only [Bool.decide_and, Bool.decide_eq_true]

theorem labels_restrict {s : CsvSource} {P : List String} {columns : List Column}
    (h : List.Forall₂ Column.Holds s.schema.fields columns) :
    (Frame.restrict ⟨columns⟩ (s.expected P).names).labels = (s.projected P).map Label.text := by
  rw [Frame.labels_of_holds (holds_restrict (fields_expected s P) h), ← names_expected]
  rfl

end QueryPlan.CsvSource
