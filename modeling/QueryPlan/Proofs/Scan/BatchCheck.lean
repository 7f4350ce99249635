import QueryPlan.Proofs.Inference
import QueryPlan.Proofs.Scan.Conformance
/-!
# What the check of a batch comes to

A frame that carries the names of a schema is accepted exactly when the schema that is found of it
conforms. A missing cell is told before anything about layouts, the first layout without a data type
before the types, and the types all at once.
-/
namespace QueryPlan

theorem Schema.ofFrame_eq_error_of_nodup {f : Frame} {e : FrameError} (hl : f.labels.Nodup) :
    ofFrame f = .error e ↔ ∃ before c after, f.columns = before ++ c :: after ∧
      (∀ d ∈ before, d.Supported) ∧ ¬ c.Supported ∧
      e = .unsupported (.unsupportedStorage c.storage) := by
  rw [ofFrame_eq_error_iff]
  have hcount : ∀ l, f.labels.count l < 2 := fun l =>
    Nat.lt_succ_of_le (List.nodup_iff_count_le_one.1 hl l)
  constructor
  · rintro ⟨before, c, after, hsplit, hbefore, hc⟩
    refine ⟨before, c, after, hsplit, fun d hd => (hbefore d hd).2, ?_⟩
    cases hc with
    | repeated h => exact absurd (hcount c.label) (Nat.not_lt.2 h)
    | layout h => exact absurd (hcount c.label) (Nat.not_lt.2 h)
    | unsupported _ hs => exact ⟨hs, rfl⟩
  · rintro ⟨before, c, after, hsplit, hbefore, hs, rfl⟩
    exact ⟨before, c, after, hsplit, fun d hd => ⟨hcount d.label, hbefore d hd⟩,
      .unsupported (hcount c.label) hs⟩

namespace Csv
variable {frame : Frame} {expected : Schema} {e : ReadError}

/-- Why a frame is refused: a required cell that it lacks, else a layout that stores no data type,
else the types. -/
inductive Refuses (frame : Frame) (expected : Schema) : ReadError → Prop where
  | missing {before : List Field} {f : Field} {after : List Field}
    (hsplit : expected.fields = before ++ f :: after) (hbefore : ∀ g ∈ before, ¬ frame.Lacks g)
    (hf : frame.Lacks f) : Refuses frame expected (.source (.missingValue f.name))
  | unsupported {before : List Column} {c : Column} {after : List Column}
    (hfull : ∀ f ∈ expected.fields, ¬ frame.Lacks f)
    (hsplit : frame.columns = before ++ c :: after) (hbefore : ∀ d ∈ before, d.Supported)
    (hc : ¬ c.Supported) :
    Refuses frame expected (.frame (.unsupported (.unsupportedStorage c.storage)))
  | mismatch {found : Schema} (hfull : ∀ f ∈ expected.fields, ¬ frame.Lacks f)
    (hfound : Schema.ofFrame frame = .ok found) (hne : found.types ≠ expected.types) :
    Refuses frame expected (.source (.typeMismatch found.types expected.types))

theorem checkBatch_eq_ok_iff : checkBatch frame expected = .ok () ↔
    (∀ f ∈ expected.fields, ¬ frame.Lacks f) ∧
      ∃ found, Schema.ofFrame frame = .ok found ∧ found.types = expected.types := by
  rw [← missingField?_none_iff]
  unfold checkBatch
  constructor
  · intro h
    split at h
    · cases h
    · next hfull =>
      split at h
      · cases h
      · next found hfound =>
        split at h
        · next htypes => exact ⟨hfull, found, hfound, htypes⟩
        · cases h
  · rintro ⟨hfull, found, hfound, htypes⟩
    rw [hfull, hfound]
    exact if_pos htypes

theorem checkBatch_eq_error_iff (hl : frame.labels.Nodup) :
    checkBatch frame expected = .error e ↔ Refuses frame expected e := by
  unfold checkBatch
  constructor
  · intro h
    split at h
    · next f hf =>
      cases h
      obtain ⟨before, after, hsplit, hbefore, hf⟩ := missingField?_some_iff.1 hf
      exact .missing hsplit hbefore hf
    · next hnone =>
      have hfull := missingField?_none_iff.1 hnone
      split at h
      · next e hfound =>
        cases h
        obtain ⟨before, c, after, hsplit, hbefore, hc, rfl⟩ :=
          (Schema.ofFrame_eq_error_of_nodup hl).1 hfound
        exact .unsupported hfull hsplit hbefore hc
      · next found hfound =>
        split at h
        · cases h
        · next hne =>
          cases h
          exact .mismatch hfull hfound hne
  · intro h
    cases h with
    | missing hsplit hbefore hf =>
      rw [missingField?_some_iff.2 ⟨_, _, hsplit, hbefore, hf⟩]
    | unsupported hfull hsplit hbefore hc =>
      rw [missingField?_none_iff.2 hfull,
        (Schema.ofFrame_eq_error_of_nodup hl).2 ⟨_, _, _, hsplit, hbefore, hc, rfl⟩]
    | mismatch hfull hfound hne =>
      rw [missingField?_none_iff.2 hfull, hfound]
      exact if_neg hne

/-- A frame under the names of a schema is accepted exactly when the schema found of it conforms, and
refused otherwise: for the first required field that lacks a cell whatever the layouts are, else for
the first layout that stores no data type, else for the types. -/
theorem checkBatch_outcome (hn : expected.names.Nodup)
    (hl : frame.labels = expected.names.map .text) :
    (checkBatch frame expected = .ok () ↔
      ∃ found, Schema.ofFrame frame = .ok found ∧ expected.Conforms found) ∧
    (∀ found, Schema.ofFrame frame = .ok found → found.names = expected.names) ∧
    ∀ e, checkBatch frame expected = .error e ↔ Refuses frame expected e := by
  have hlabels := Frame.nodup_labels_of_names hl hn
  refine ⟨?_, fun found hfound => ?_, fun e => checkBatch_eq_error_iff hlabels⟩
  · rw [checkBatch_eq_ok_iff]
    constructor
    · rintro ⟨hfull, found, hfound, htypes⟩
      exact ⟨found, hfound, (Frame.conforms_iff hn hl hfound).2 ⟨hfull, htypes⟩⟩
    · rintro ⟨found, hfound, hconforms⟩
      obtain ⟨hfull, htypes⟩ := (Frame.conforms_iff hn hl hfound).1 hconforms
      exact ⟨hfull, found, hfound, htypes⟩
  · rw [Schema.names_of_ofFrame hfound, hl, List.map_map]
    exact List.map_id _

/-- A missing cell is told although a column before it stores nothing, and what stores nothing is told
although a column before it has another type. -/
theorem checkBatch_outcome_mixed :
    let expected : Schema := ⟨[⟨"a", .int64, true⟩, ⟨"b", .utf8, false⟩]⟩
    checkBatch ⟨[⟨.text "a", "Int64", [.missing]⟩, ⟨.text "b", "string", [.text "x"]⟩]⟩ expected =
      .ok () ∧
    checkBatch ⟨[⟨.text "a", "complex128", [.missing]⟩, ⟨.text "b", "bool", [.missing]⟩]⟩ expected =
      .error (.source (.missingValue "b")) ∧
    checkBatch ⟨[⟨.text "a", "bool", [.missing]⟩, ⟨.text "b", "complex128", []⟩]⟩ expected =
      .error (.frame (.unsupported (.unsupportedStorage "complex128"))) ∧
    checkBatch ⟨[⟨.text "a", "bool", []⟩, ⟨.text "b", "object", []⟩]⟩ expected =
      .error (.source (.typeMismatch [.boolean, .utf8] [.int64, .utf8])) := by
  intro expected
  have hn : expected.names.Nodup := by decide
  refine ⟨?_, ?_, ?_, ?_⟩
  · refine (checkBatch_outcome hn rfl).1.2 ⟨_, rfl, .cons ⟨rfl, rfl, ?_⟩ (.cons ⟨rfl, rfl, ?_⟩ .nil)⟩
    · decide
    · decide
  · have hsplit : expected.fields = [⟨"a", .int64, true⟩] ++ ⟨"b", .utf8, false⟩ :: [] := rfl
    exact ((checkBatch_outcome hn rfl).2.2 _).2 (.missing hsplit (by decide) (by decide))
  · have hsplit : [⟨.text "a", "bool", [.missing]⟩, ⟨.text "b", "complex128", []⟩] =
      [(⟨.text "a", "bool", [.missing]⟩ : Column)] ++ ⟨.text "b", "complex128", []⟩ :: [] := rfl
    exact ((checkBatch_outcome hn rfl).2.2 _).2
      (.unsupported (by decide) hsplit (by decide) (by decide))
  · have hfound : Schema.ofFrame ⟨[⟨.text "a", "bool", []⟩, ⟨.text "b", "object", []⟩]⟩ =
      .ok ⟨[⟨"a", .boolean, false⟩, ⟨"b", .utf8, false⟩]⟩ := rfl
    exact ((checkBatch_outcome hn rfl).2.2 _).2 (.mismatch (by decide) hfound (by decide))

end Csv
end QueryPlan
