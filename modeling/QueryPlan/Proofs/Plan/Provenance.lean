import QueryPlan.Proofs.Plan.Coherence
/-!
# Where nullable columns and floating numbers come from

An expression other than a column has a field that is not nullable, and a type that some column has
or that is no floating number. What a schema is derived from another one can show of either kind was
therefore there before, and along the nodes of a plan it goes back to the schema of the scan.
-/
namespace QueryPlan

namespace Expr
variable {s : Schema} {e : Expr} {f : Field}

/-- Only a column has a nullable field, and it is the field that the column stands for. -/
theorem mem_of_nullable (h : e.field s = .ok f) (hn : f.nullable = true) : f ∈ s.fields := by
  cases e with
  | column name => exact Schema.mem_of_resolve h
  | text | integer =>
    cases h
    cases hn
  | logic | arith =>
    obtain ⟨_, _, h⟩ := bind_eq_ok_iff.1 h
    obtain ⟨_, _, h⟩ := bind_eq_ok_iff.1 h
    cases h
    cases hn
  | aggregation =>
    obtain ⟨_, _, h⟩ := bind_eq_ok_iff.1 h
    cases h
    cases hn

theorem exists_float (h : e.field s = .ok f) (hf : f.type = .float64) :
    ∃ g ∈ s.fields, g.type = .float64 := by
  induction e generalizing f with
  | column name => exact ⟨f, Schema.mem_of_resolve h, hf⟩
  | text | integer =>
    cases h
    cases hf
  | logic =>
    obtain ⟨_, _, h⟩ := bind_eq_ok_iff.1 h
    obtain ⟨_, _, h⟩ := bind_eq_ok_iff.1 h
    cases h
    cases hf
  | arith op left right ihl =>
    obtain ⟨g, hg, h⟩ := bind_eq_ok_iff.1 h
    obtain ⟨_, _, h⟩ := bind_eq_ok_iff.1 h
    cases h
    exact ihl hg hf
  | aggregation func argument ih =>
    obtain ⟨g, hg, h⟩ := bind_eq_ok_iff.1 h
    cases h
    exact ih hg hf

end Expr

/-- A schema draws on another one when it has nullable fields and floating numbers only from there. -/
structure Schema.DrawsOn (d s : Schema) : Prop where
  nullable : ∀ f ∈ d.fields, f.nullable = true → f ∈ s.fields
  float : ∀ f ∈ d.fields, f.type = .float64 → ∃ g ∈ s.fields, g.type = .float64

namespace Schema
variable {s t d : Schema} {exprs : List Expr}

theorem DrawsOn.refl (s : Schema) : s.DrawsOn s :=
  ⟨fun _ hf _ => hf, fun f hf ht => ⟨f, hf, ht⟩⟩

theorem DrawsOn.trans (hd : d.DrawsOn s) (hs : s.DrawsOn t) : d.DrawsOn t where
  nullable f hf hn := hs.nullable f (hd.nullable f hf hn) hn
  float f hf ht := by
    obtain ⟨g, hg, hgt⟩ := hd.float f hf ht
    exact hs.float g hg hgt

theorem drawsOn_of_derive (h : s.derive exprs = .ok d) : d.DrawsOn s where
  nullable f hf hn := by
    obtain ⟨e, _, he⟩ := exists_of_mem_right (derive_eq_ok_iff.1 h) hf
    exact Expr.mem_of_nullable he hn
  float f hf ht := by
    obtain ⟨e, _, he⟩ := exists_of_mem_right (derive_eq_ok_iff.1 h) hf
    exact Expr.exists_float he ht

end Schema

namespace Plan
variable {input p : Plan} {log : List LogRecord}

def bound : Plan → Schema
  | .scan _ bound _ _ => bound
  | .projection input .. | .selection input _ | .aggregate input .. => input.bound

theorem Supports.bound (h : input.Supports p) : p.bound = input.bound := by
  cases h <;> rfl

theorem Supports.drawsOn (h : input.Supports p) : p.schema.DrawsOn input.schema := by
  cases h with
  | projection h | aggregate _ h => exact Schema.drawsOn_of_derive h
  | selection => exact .refl _

theorem WellBuilt.drawsOn (h : p.WellBuilt) :
    ∀ n ∈ p.nodes, n.bound = p.bound ∧ n.schema.DrawsOn p.bound := by
  induction h with
  | scan =>
    intro n hn
    obtain rfl := List.mem_singleton.1 hn
    exact ⟨rfl, .refl _⟩
  | @node input p hi hs ih =>
    have hinput : input ∈ input.nodes := by cases input <;> simp [nodes]
    intro n hn
    rw [hs.nodes, List.mem_cons] at hn
    rw [hs.bound]
    rcases hn with rfl | hn
    · exact ⟨hs.bound, hs.drawsOn.trans (ih input hinput).2⟩
    · exact ih n hn

/-- In every node of a plan a nullable field is a field of the scan, and there are floating numbers
only if the scan has some. -/
theorem Constructed.nullable_float (h : Constructed log p) : ∀ n ∈ p.nodes,
    (∀ f ∈ n.schema.fields, f.nullable = true → f ∈ p.bound.fields) ∧
    ((∀ f ∈ p.bound.fields, f.type ≠ .float64) → ∀ f ∈ n.schema.fields, f.type ≠ .float64) := by
  intro n hn
  obtain ⟨_, hdraws⟩ := h.wellBuilt.1.drawsOn n hn
  refine ⟨hdraws.nullable, fun hnone f hf ht => ?_⟩
  obtain ⟨g, hg, hgt⟩ := hdraws.float f hf ht
  exact hnone g hg hgt

private def readings : Plan :=
  ofFile "t.csv" ⟨[⟨"a", .int64, true⟩, ⟨"b", .utf8, false⟩]⟩

private def sums : Plan :=
  .projection readings [.column "a", .arith .add (.column "a") (.text "x")]
    ⟨[⟨"a", .int64, true⟩, ⟨"add", .int64, false⟩]⟩

/-- A nullable column is a group beside the average of a sum that bears another name. -/
theorem nullable_group_beside_average : ∃ log p,
    Constructed log p ∧ p.schema = ⟨[⟨"a", .int64, true⟩, ⟨"avg", .int64, false⟩]⟩ ∧
    ∀ n ∈ p.nodes,
      (∀ f ∈ n.schema.fields, f.nullable = true → f ∈ readings.schema.fields) ∧
      ∀ f ∈ n.schema.fields, f.type ≠ .float64 := by
  have hscan : buildScan "t.csv" readings.schema ⟨readings.schema, "t.csv", .standard⟩
      (.names []) = ⟨_, .ok readings⟩ := rfl
  have hselect : readings.projectDrafts [.column "a", .arith .add (.column "a") (.text "x")] =
      ⟨_, .ok sums⟩ := rfl
  have haggregate : sums.aggregateDrafts [.column "a"] [.aggregation .avg (.column "add")] =
      ⟨_, .ok _⟩ := rfl
  have h := ((Constructed.scan hscan).projection hselect).aggregate haggregate
  have hnone : ∀ f ∈ readings.schema.fields, f.type ≠ .float64 := by decide
  refine ⟨_, _, h, rfl, fun n hn => ?_⟩
  obtain ⟨hnullable, hfloat⟩ := Constructed.nullable_float h n hn
  exact ⟨hnullable, hfloat hnone⟩

end Plan
end QueryPlan
