import QueryPlan.Schema.DataType
/-!
# Schemas

A schema lists the fields of a relation in column order. Names may repeat, but a name is resolved
only while exactly one field carries it. Selecting columns and finding repeated names are the
operations everything else is built from.
-/
namespace QueryPlan

structure Field where
  name : String
  type : DataType
  nullable : Bool := false
  deriving DecidableEq, Repr

namespace Field

def display (f : Field) : String :=
  f.name ++ ": " ++ f.type.name ++ (if f.nullable then ", nullable" else "")

def shown (f : Field) : String :=
  "Field(name=" ++ Text.quoted f.name ++ ", dtype=" ++ f.type.shown ++ ", nullable=" ++
    Text.truth f.nullable ++ ")"

end Field

/-- A column name that does not name exactly one field, among the names that were available. -/
structure UnknownColumn where
  column : String
  available : List String
  /-- Whether several fields carry the name, rather than none. -/
  ambiguous : Bool
  deriving DecidableEq, Repr

def UnknownColumn.message (e : UnknownColumn) : String :=
  (if e.ambiguous then "Ambiguous column: " else "Column not found: ") ++ e.column ++
    (if e.available.isEmpty then ""
     else " (available: " ++ Text.commaSeparated e.available ++ ")")

def UnknownColumn.shown (e : UnknownColumn) : String :=
  "UnknownColumnError(" ++ Text.quoted e.message ++ ")"

structure Schema where
  fields : List Field
  deriving DecidableEq, Repr

namespace Schema

def names (s : Schema) : List String :=
  s.fields.map (·.name)

def types (s : Schema) : List DataType :=
  s.fields.map (·.type)

def width (s : Schema) : Nat :=
  s.fields.length

def hasColumn (s : Schema) (name : String) : Bool :=
  s.names.contains name

/-- The single field that carries the name. -/
def resolve (s : Schema) (name : String) : Except UnknownColumn Field :=
  match s.fields.filter (·.name == name) with
  | [f] => .ok f
  | [] => .error ⟨name, s.names, false⟩
  | _ => .error ⟨name, s.names, true⟩

/-- The names that occur in the list more than once, in order of first occurrence. -/
def repeatedNames (names : List String) : List String :=
  names.eraseDups.filter fun name => 1 < names.count name

def duplicateNames (s : Schema) : List String :=
  repeatedNames s.names

def select (s : Schema) (names : List String) : Except UnknownColumn Schema := do
  return ⟨← names.mapM s.resolve⟩

def display (s : Schema) : String :=
  "\n".intercalate (s.fields.map Field.display)

def shown (s : Schema) : String :=
  "Schema(fields=" ++ Text.tuple (s.fields.map Field.shown) ++ ")"

@[simp] theorem length_names (s : Schema) : s.names.length = s.width := by
  simp [names, width]

theorem count_names (s : Schema) (name : String) :
    s.names.count name = (s.fields.filter (·.name == name)).length := by
  rw [names, List.count, List.countP_map, List.countP_eq_length_filter]
  rfl

theorem resolve_eq_ok_iff {s : Schema} {name : String} {f : Field} :
    s.resolve name = .ok f ↔ s.fields.filter (·.name == name) = [f] := by
  unfold resolve
  constructor
  · intro h
    split at h
    · next g hg => cases h; exact hg
    · cases h
    · cases h
  · intro h
    rw [h]

theorem name_of_resolve {s : Schema} {name : String} {f : Field}
    (h : s.resolve name = .ok f) : f.name = name := by
  have hf : f ∈ s.fields.filter (·.name == name) := by
    rw [resolve_eq_ok_iff.1 h]
    exact List.mem_singleton_self f
  simpa using (List.mem_filter.1 hf).2

/-- A name that does not resolve is reported with every name of the schema. -/
theorem error_of_resolve {s : Schema} {name : String} {e : UnknownColumn}
    (h : s.resolve name = .error e) : e.column = name ∧ e.available = s.names := by
  unfold resolve at h
  split at h <;> cases h <;> exact ⟨rfl, rfl⟩

theorem names_of_select {s t : Schema} {names : List String} (h : s.select names = .ok t) :
    t.names = names := by
  have hm : ∀ (ns : List String) (fs : List Field), ns.mapM s.resolve = .ok fs →
      fs.map (·.name) = ns := by
    intro ns
    induction ns with
    | nil =>
      intro fs hfs
      cases hfs
      rfl
    | cons n ns ih =>
      intro fs hfs
      rw [List.mapM_cons] at hfs
      cases hn : s.resolve n with
      | error e => rw [hn] at hfs; cases hfs
      | ok f =>
        cases hr : ns.mapM s.resolve with
        | error e => rw [hn, hr] at hfs; cases hfs
        | ok gs =>
          rw [hn, hr] at hfs
          cases hfs
          rw [List.map_cons, name_of_resolve hn, ih gs hr]
  unfold select at h
  cases hs : names.mapM s.resolve with
  | error e => rw [hs] at h; cases h
  | ok fs =>
    rw [hs] at h
    cases h
    exact hm names fs hs

end Schema
end QueryPlan
