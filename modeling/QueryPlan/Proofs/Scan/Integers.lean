import QueryPlan.Proofs.Csv.Integers
import QueryPlan.Proofs.Scan.Batches
/-!
# Integers of a scan

A scan keeps the integers of a file when every column of integers that it reads is faithful to the
texts of its batch. Which columns are is told from their texts alone. The others are an unsigned
column beyond the signed range, a nullable one in which numbers are taken modulo two to the
sixty-fourth, and one in which a large integer stands beside a number that is none.
-/
namespace QueryPlan.CsvSource
open Csv

def FaithfulTo (s : CsvSource) (P : List String) (batch : List Row) (f : Frame) : Prop :=
  List.Forall₂ (fun fk c => fk.1.type = .int64 →
    Faithful fk.1.nullable (cellsAt batch fk.2) c.storage c.cells) (s.kept P) f.columns

def KeepsIntegers (s : CsvSource) (files : String → Except SourceFault ByteArray)
    (P : List String) : Prop :=
  ∀ fs, (s.scan files P).result = .ok fs →
    ∃ batches, s.batches? (files s.path) = some batches ∧
      List.Forall₂ (s.FaithfulTo P) batches fs

/-- What is told of a column of integers that was read: whether it is faithful, that it keeps to the
signed range in the declared layout, and that it is exact in the unsigned one. -/
structure IntegersTold (s : CsvSource) (batch : List Row) (fk : Field × Nat) (c : Column) : Prop where
  label : c.label = .text fk.1.name
  faithful : Faithful fk.1.nullable (cellsAt batch fk.2) c.storage c.cells ↔
    s.grammar.Preserves fk.1.nullable (cellsAt batch fk.2)
  layout : c.storage = (DataType.int64.storage fk.1.nullable).name ∧ InRange c.cells ∨
    c.storage = Storage.uint64.name ∧ Exact (cellsAt batch fk.2) c.cells

variable {s : CsvSource} {P : List String} {files : String → Except SourceFault ByteArray}
  {fs : List Frame}

theorem integersTold_of_readField {batch : List Row} {fk : Field × Nat} {c : Column}
    (ht : fk.1.type = .int64) (h : readField s.grammar batch fk.1 fk.2 = .ok c) :
    s.IntegersTold batch fk c := by
  obtain ⟨stored, hs, hc⟩ := readField_eq_ok_iff.1 h
  subst hc
  rw [ht] at hs
  have hread := Grammar.integersRead hs
  refine ⟨rfl, hread.faithful_iff, ?_⟩
  cases hread.range_or_exact with
  | inl h => exact .inl ⟨by rw [h.1], h.2⟩
  | inr h => exact .inr ⟨by rw [h.1], h.2⟩

/-- Every column of integers that a scan reads is faithful exactly when the texts of its batch are of
the kind that is preserved. -/
theorem scan_integers (h : (s.scan files P).result = .ok fs) :
    ∃ batches, s.batches? (files s.path) = some batches ∧ List.Forall₂ (fun batch f =>
      List.Forall₂ (fun fk c => fk.1.type = .int64 → s.IntegersTold batch fk c)
        (s.kept P) f.columns) batches fs := by
  obtain ⟨hr, batches, hb, _, hf⟩ := scan_eq_ok_iff_batches.1 h
  refine ⟨batches, hb, hf.imp fun batch f hread => ?_⟩
  apply (hr.kept_of_readBatch hread).imp
  intro fk c hfield ht
  exact integersTold_of_readField ht hfield

private theorem scan_unsigned :
    ((single .int64).scan (everywhere "9223372036854775808\n") []).result =
      .ok [⟨[⟨.text "a", "uint64", [.integer 9223372036854775808]⟩]⟩] := by
  decide +kernel

private theorem batches?_unsigned :
    (single .int64).batches? (everywhere "9223372036854775808\n" "n.csv") =
      some [[["9223372036854775808"]]] := by
  decide +kernel

theorem unsigned_not_faithful :
    ((single .int64).scan (everywhere "9223372036854775808\n") []).result =
      .ok [⟨[⟨.text "a", "uint64", [.integer 9223372036854775808]⟩]⟩] ∧
    ¬ Faithful false [some "9223372036854775808"] "uint64" [.integer 9223372036854775808] ∧
    Exact [some "9223372036854775808"] [.integer 9223372036854775808] := by
  obtain ⟨batches, hb, hf⟩ := scan_integers scan_unsigned
  cases batches?_unsigned.symm.trans hb
  cases hf with
  | cons hcolumns _ =>
    cases hcolumns with
    | cons hfirst _ =>
      have htold := hfirst rfl
      refine ⟨scan_unsigned, fun h => ?_, ?_⟩
      · apply (htold.faithful.1 h).layout rfl rfl (by decide +kernel)
        exact ⟨"9223372036854775808", by decide +kernel, 9223372036854775808, by decide +kernel,
          by decide⟩
      · exact (htold.layout.resolve_left fun h => absurd h.1 (by decide +kernel)).2

private def nullableIntegers : CsvSource :=
  ⟨⟨[⟨"a", .int64, true⟩]⟩, "n.csv", .standard⟩

private theorem KeepsIntegers.faithful (texts : Texts) {batch : List Row} {nullable : Bool}
    {s : CsvSource} {c : Column} {files : String → Except SourceFault ByteArray}
    (h : s.KeepsIntegers files []) (hs : s.schema.fields = [⟨"a", .int64, nullable⟩])
    (hscan : (s.scan files []).result = .ok [⟨[c]⟩])
    (hb : s.batches? (files s.path) = some [batch]) (ht : cellsAt batch 0 = texts) :
    Faithful nullable texts c.storage c.cells := by
  obtain ⟨batches, hb', hf⟩ := h _ hscan
  cases hb.symm.trans hb'
  cases hf with
  | cons hcolumns _ =>
    have hkept : s.kept [] = [(⟨"a", .int64, nullable⟩, 0)] := by
      rw [kept, hs]
      rfl
    rw [FaithfulTo, hkept] at hcolumns
    cases hcolumns with
    | cons hfirst _ =>
      rw [← ht]
      exact hfirst rfl

/-- An unsigned column, a number taken modulo two to the sixty-fourth, and one that is changed because
another number has a point. -/
theorem integers_not_kept :
    ¬ (single .int64).KeepsIntegers (everywhere "9223372036854775808\n") [] ∧
    ¬ nullableIntegers.KeepsIntegers (everywhere "18446744073709551615\n") [] ∧
    ¬ nullableIntegers.KeepsIntegers (everywhere "9007199254740993\n1.0\n") [] := by
  refine ⟨fun h => ?_, fun h => ?_, fun h => ?_⟩
  · have hf := h.faithful _ rfl scan_unsigned batches?_unsigned rfl
    exact absurd hf.layout (by decide +kernel)
  · have hscan : (nullableIntegers.scan (everywhere "18446744073709551615\n") []).result =
        .ok [⟨[⟨.text "a", "Int64", [.integer (-1)]⟩]⟩] := by decide +kernel
    have hb : nullableIntegers.batches? (everywhere "18446744073709551615\n" "n.csv") =
        some [[["18446744073709551615"]]] := by decide +kernel
    have hf := (h.faithful [some "18446744073709551615"] rfl hscan hb
      (by decide +kernel)).exact
    cases hf with
    | cons hfirst _ =>
      have heq := hfirst _ 18446744073709551615 rfl (by decide +kernel)
      exact absurd heq (by decide)
  · have hscan : (nullableIntegers.scan (everywhere "9007199254740993\n1.0\n") []).result =
        .ok [⟨[⟨.text "a", "Int64", [.integer 9007199254740992, .integer 1]⟩]⟩] := by
      decide +kernel
    have hb : nullableIntegers.batches? (everywhere "9007199254740993\n1.0\n" "n.csv") =
        some [[["9007199254740993"], ["1.0"]]] := by decide +kernel
    have hf := (h.faithful [some "9007199254740993", some "1.0"] rfl hscan hb
      (by decide +kernel)).exact
    cases hf with
    | cons hfirst _ =>
      have heq := hfirst _ 9007199254740993 rfl (by decide +kernel)
      exact absurd heq (by decide)

end QueryPlan.CsvSource
