import QueryPlan.Proofs.Csv.Digits
import QueryPlan.Proofs.Schema.Repetition
import QueryPlan.Schema.Inference
/-!
# What the schema of a frame comes to

A column has a field when no other column has its label and its layout stores a data type. A frame
has a schema when each column has a field, and otherwise the first column from the left that has none
decides the error. Labels differ where their names do not only as a number differs from the text that
spells it, and these names are the ones that the schema does not resolve.
-/
namespace QueryPlan

theorem Label.number_or_text {l m : Label} (h : l.name = m.name) (hne : l ≠ m) :
    ∃ n : Int, l = .number n ∧ m = .text (toString n) ∨ l = .text (toString n) ∧ m = .number n := by
  cases l with
  | text s =>
    cases m with
    | text s' => exact absurd (congrArg text h) hne
    | number n => exact ⟨n, .inr ⟨congrArg text h, rfl⟩⟩
  | number n =>
    cases m with
    | text s => exact ⟨n, .inl ⟨rfl, congrArg text h.symm⟩⟩
    | number m =>
      -- an integer is read back from its digits
      have hread : some n = some m := by
        rw [← Csv.signedDigits?_toString n, ← Csv.signedDigits?_toString m]
        exact congrArg Csv.signedDigits? h
      exact absurd (congrArg number (Option.some.inj hread)) hne

/-- Distinct labels go by one name when one of them is the text of it and another the number. -/
theorem two_le_count_name_iff {labels : List Label} (hn : labels.Nodup) {name : String} :
    2 ≤ (labels.map Label.name).count name ↔
      ∃ n : Int, name = toString n ∧ .number n ∈ labels ∧ .text (toString n) ∈ labels := by
  have hcount : (labels.map Label.name).count name =
      (labels.filter fun l => l.name == name).length := by
    rw [List.count, List.countP_map, List.countP_eq_length_filter]
    rfl
  have hmem : ∀ l, l ∈ (labels.filter fun l => l.name == name) ↔ l ∈ labels ∧ l.name = name := by
    simp
  have hdistinct : (labels.filter fun l => l.name == name).Nodup := hn.filter _
  rw [hcount]
  generalize (labels.filter fun l => l.name == name) = alike at hmem hdistinct
  constructor
  · intro h
    match alike with
    | l :: m :: _ =>
      obtain ⟨hl, hlname⟩ := (hmem l).1 (by simp)
      obtain ⟨hm, hmname⟩ := (hmem m).1 (by simp)
      have hne : l ≠ m := fun heq => by simp [heq] at hdistinct
      obtain ⟨n, ⟨rfl, rfl⟩ | ⟨rfl, rfl⟩⟩ := Label.number_or_text (hlname.trans hmname.symm) hne
      · exact ⟨n, hlname.symm, hl, hm⟩
      · exact ⟨n, hmname.symm, hm, hl⟩
  · rintro ⟨n, rfl, hnumber, htext⟩
    have hboth : [Label.number n, .text (toString n)] ⊆ alike := by
      intro l hl
      rcases List.mem_pair.1 hl with rfl | rfl
      · exact (hmem _).2 ⟨hnumber, rfl⟩
      · exact (hmem _).2 ⟨htext, rfl⟩
    exact List.Nodup.length_le_of_subset (by simp) hboth

def Column.Supported (c : Column) : Prop :=
  ∃ t, DataType.ofStorageName c.storage = .ok t

instance (c : Column) : Decidable c.Supported :=
  match h : DataType.ofStorageName c.storage with
  | .ok t => isTrue ⟨t, h⟩
  | .error _ => isFalse fun ⟨_, ht⟩ => by simp [h] at ht

structure Column.Shows (c : Column) (g : Field) : Prop where
  name : g.name = c.label.name
  type : DataType.ofStorageName c.storage = .ok g.type
  nullable : g.nullable = true ↔ .missing ∈ c.cells

theorem Column.shows_iff {c : Column} {g : Field} : c.Shows g ↔
    ∃ type, DataType.ofStorageName c.storage = .ok type ∧ g = ⟨c.label.name, type, c.hasMissing⟩ := by
  have hmissing : c.hasMissing = true ↔ .missing ∈ c.cells := List.contains_iff_mem
  constructor
  · rintro ⟨hname, htype, hnullable⟩
    obtain ⟨name, type, nullable⟩ := g
    rw [← hmissing, ← Bool.eq_iff_iff] at hnullable
    subst hname hnullable
    exact ⟨type, htype, rfl⟩
  · rintro ⟨type, htype, rfl⟩
    exact ⟨rfl, htype, hmissing⟩

theorem Column.exists_shows_iff {c : Column} : (∃ g, c.Shows g) ↔ c.Supported := by
  simp only [shows_iff]
  constructor
  · rintro ⟨-, type, htype, -⟩
    exact ⟨type, htype⟩
  · rintro ⟨type, htype⟩
    exact ⟨_, type, htype, rfl⟩

theorem DataType.ofStorageName_eq_error_iff {name : String} {e : DataTypeError} :
    ofStorageName name = .error e ↔
      e = .unsupportedStorage name ∧ ¬ ∃ t, ofStorageName name = .ok t := by
  unfold ofStorageName
  dsimp only
  repeat' split
  all_goals simp [eq_comm]

namespace Frame
variable {f : Frame} {c : Column} {g : Field} {e : FrameError}

inductive Offends (f : Frame) (c : Column) : FrameError → Prop where
  | repeated (h : 2 ≤ f.labels.count c.label) (hl : c.label ≠ .layout) : Offends f c .repeatedLabel
  | layout (h : 2 ≤ f.labels.count c.label) (hl : c.label = .layout) :
    Offends f c (.columnsAsLayout (f.textOf c.label))
  | unsupported (h : f.labels.count c.label < 2) (hs : ¬ c.Supported) :
    Offends f c (.unsupported (.unsupportedStorage c.storage))

theorem field_eq_ok_iff : f.field c = .ok g ↔ f.labels.count c.label < 2 ∧ c.Shows g := by
  rw [field, Column.shows_iff]
  constructor
  · intro h
    split at h
    · cases h
    · next hcount =>
      split at h
      · next type htype =>
        cases h
        exact ⟨by omega, type, htype, rfl⟩
      · cases h
  · rintro ⟨hcount, type, htype, rfl⟩
    rw [if_neg (by omega), htype]

theorem field_eq_error_iff : f.field c = .error e ↔ f.Offends c e := by
  rw [field]
  constructor
  · intro h
    split at h
    · next hcount =>
      cases h
      rw [repetition]
      split
      · next hl => exact .layout hcount hl
      · next hl => exact .repeated hcount hl
    · next hcount =>
      split at h
      · cases h
      · next htype =>
        cases h
        obtain ⟨rfl, hs⟩ := DataType.ofStorageName_eq_error_iff.1 htype
        exact .unsupported (by omega) hs
  · intro h
    cases h with
    | repeated h hl => rw [if_pos (by omega), repetition, if_neg hl]
    | layout h hl => rw [if_pos (by omega), repetition, if_pos hl]
    | unsupported h hs =>
      rw [if_neg (by omega), DataType.ofStorageName_eq_error_iff.2 ⟨rfl, hs⟩]

theorem exists_field_iff :
    (∃ g, f.field c = .ok g) ↔ f.labels.count c.label < 2 ∧ c.Supported := by
  simp only [field_eq_ok_iff, exists_and_left, Column.exists_shows_iff]

structure Inferred (f : Frame) (s : Schema) : Prop where
  fields : List.Forall₂ Column.Shows f.columns s.fields
  repeats : ¬ s.names.Nodup ↔ ∃ n : Int, .number n ∈ f.labels ∧ .text (toString n) ∈ f.labels
  ambiguous : ∀ name, (∃ u, s.resolve name = .error u ∧ u.ambiguous = true) ↔
    ∃ n : Int, name = toString n ∧ .number n ∈ f.labels ∧ .text (toString n) ∈ f.labels

theorem nodup_labels_iff : f.labels.Nodup ↔ ∀ c ∈ f.columns, f.labels.count c.label < 2 := by
  rw [List.nodup_iff_count_le_one]
  constructor
  · intro h c _
    exact Nat.lt_succ_of_le (h c.label)
  · intro h l
    by_cases hl : l ∈ f.labels
    · obtain ⟨c, hc, rfl⟩ := List.mem_map.1 hl
      exact Nat.le_of_lt_succ (h c hc)
    · rw [List.count_eq_zero_of_not_mem hl]
      exact Nat.zero_le 1

end Frame

namespace Schema
variable {f : Frame} {s : Schema}

theorem ofFrame_eq_ok_iff :
    ofFrame f = .ok s ↔ f.labels.Nodup ∧ List.Forall₂ Column.Shows f.columns s.fields := by
  have hfields : ofFrame f = .ok s ↔ f.columns.mapM f.field = .ok s.fields := by
    rw [ofFrame, bind_eq_ok_iff]
    constructor
    · rintro ⟨fields, hfields, h⟩
      cases h
      exact hfields
    · intro h
      exact ⟨_, h, rfl⟩
  rw [hfields, mapM_eq_ok_iff, Frame.nodup_labels_iff, ← List.forall₂_and_left]
  simp only [Frame.field_eq_ok_iff]

theorem names_of_ofFrame (h : ofFrame f = .ok s) : s.names = f.labels.map Label.name := by
  rw [Frame.labels, List.map_map]
  exact (map_eq_map_of_forall₂ (ofFrame_eq_ok_iff.1 h).2 fun _ _ hc => hc.name.symm).symm

theorem exists_ofFrame_iff :
    (∃ s, ofFrame f = .ok s) ↔ f.labels.Nodup ∧ ∀ c ∈ f.columns, c.Supported := by
  simp only [ofFrame_eq_ok_iff]
  constructor
  · rintro ⟨s, hl, h⟩
    refine ⟨hl, fun c hc => ?_⟩
    obtain ⟨g, -, hg⟩ := exists_of_mem_left h hc
    exact Column.exists_shows_iff.1 ⟨g, hg⟩
  · rintro ⟨hl, h⟩
    obtain ⟨fields, hfields⟩ := exists_forall₂ fun c hc => Column.exists_shows_iff.2 (h c hc)
    exact ⟨⟨fields⟩, hl, hfields⟩

theorem ofFrame_eq_error_iff {e : FrameError} : ofFrame f = .error e ↔
    ∃ before c after, f.columns = before ++ c :: after ∧
      (∀ d ∈ before, f.labels.count d.label < 2 ∧ d.Supported) ∧ f.Offends c e := by
  have hfields : ofFrame f = .error e ↔ f.columns.mapM f.field = .error e := by
    rw [ofFrame, bind_eq_error_iff]
    refine ⟨fun h => h.resolve_right ?_, .inl⟩
    rintro ⟨fields, -, h⟩
    cases h
  rw [hfields, mapM_eq_error_iff]
  simp only [Frame.exists_field_iff, Frame.field_eq_error_iff]

theorem inferred_of_ofFrame (h : ofFrame f = .ok s) : f.Inferred s := by
  obtain ⟨hl, hfields⟩ := ofFrame_eq_ok_iff.1 h
  have htwice : ∀ name, 2 ≤ s.names.count name ↔
      ∃ n : Int, name = toString n ∧ .number n ∈ f.labels ∧ .text (toString n) ∈ f.labels := by
    rw [names_of_ofFrame h]
    exact fun _ => two_le_count_name_iff hl
  refine ⟨hfields, ?_, fun name => resolve_ambiguous_iff.trans (htwice name)⟩
  rw [List.nodup_iff_count_le_one]
  constructor
  · intro hn
    obtain ⟨name, hname⟩ := not_forall.1 hn
    obtain ⟨n, -, hboth⟩ := (htwice name).1 (by omega)
    exact ⟨n, hboth⟩
  · rintro ⟨n, hboth⟩ hn
    have htwo : 2 ≤ s.names.count (toString n) := (htwice _).2 ⟨n, rfl, hboth⟩
    have hone : s.names.count (toString n) ≤ 1 := hn _
    omega

/-- A frame has a schema when its labels are distinct and each layout stores a data type. Otherwise
the first column from the left decides that shares its label or stores nothing. The fields of the
schema are those that the columns show, and a name is ambiguous in it when the frame has both the
number and the text that spells it. -/
theorem ofFrame_outcome (f : Frame) :
    ((∃ s, ofFrame f = .ok s) ↔ f.labels.Nodup ∧ ∀ c ∈ f.columns, c.Supported) ∧
    (∀ e, ofFrame f = .error e ↔ ∃ before c after, f.columns = before ++ c :: after ∧
      (∀ d ∈ before, f.labels.count d.label < 2 ∧ d.Supported) ∧ f.Offends c e) ∧
    ∀ s, ofFrame f = .ok s → f.Inferred s :=
  ⟨exists_ofFrame_iff, fun _ => ofFrame_eq_error_iff, fun _ => inferred_of_ofFrame⟩

/-- The number and the text that spells it collapse, and a layout without a data type decides before
a label that is repeated behind it. -/
theorem ofFrame_outcome_mixed :
    let collapsed : Frame := ⟨[⟨.number 1, "int64", [.integer 7]⟩, ⟨.text "a", "bool", [.boolean true]⟩,
      ⟨.text "1", "object", [.missing]⟩]⟩
    let refused : Frame := ⟨[⟨.text "a", "int64", []⟩, ⟨.number 3, "complex128", []⟩,
      ⟨.text "b", "int64", []⟩, ⟨.text "b", "int64", []⟩]⟩
    (∃ s, ofFrame collapsed = .ok s ∧ ¬ s.names.Nodup ∧
      ∃ u, s.resolve "1" = .error u ∧ u.ambiguous = true) ∧
    ofFrame refused = .error (.unsupported (.unsupportedStorage "complex128")) := by
  intro collapsed refused
  constructor
  · obtain ⟨s, hs⟩ := (ofFrame_outcome collapsed).1.2 ⟨by decide, by decide⟩
    have hinferred := (ofFrame_outcome collapsed).2.2 s hs
    have hboth : Label.number 1 ∈ collapsed.labels ∧ .text (toString 1) ∈ collapsed.labels := by decide
    exact ⟨s, hs, hinferred.repeats.2 ⟨1, hboth⟩, (hinferred.ambiguous "1").2 ⟨1, rfl, hboth⟩⟩
  · refine ((ofFrame_outcome refused).2.1 _).2
      ⟨[⟨.text "a", "int64", []⟩], ⟨.number 3, "complex128", []⟩, _, rfl, ?_, ?_⟩
    · intro d hd
      cases List.mem_singleton.1 hd
      exact ⟨by decide, by decide⟩
    · exact .unsupported (by decide) (by decide)

/-- Not every label that is repeated is refused as such. Columns that are labelled by the word for a
layout are taken for one. -/
theorem ofFrame_layouts :
    let f : Frame := ⟨[⟨.layout, "int64", []⟩, ⟨.layout, "int64", []⟩]⟩
    f.labels.count .layout = 2 ∧ ofFrame f ≠ .error .repeatedLabel ∧
      ofFrame f = .error (.columnsAsLayout
        (some "Empty DataFrame\nColumns: [dtype, dtype]\nIndex: []")) := by
  intro f
  have hf : ofFrame f = .error (.columnsAsLayout
      (some "Empty DataFrame\nColumns: [dtype, dtype]\nIndex: []")) := by decide +kernel
  refine ⟨by decide, ?_, hf⟩
  rw [hf]
  decide

end Schema
end QueryPlan
