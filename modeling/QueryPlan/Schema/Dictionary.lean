import QueryPlan.Schema.Basic
/-!
# Schemas as dictionaries

A dictionary maps names to values and remembers the order in which the names came. Giving a value
to a name that is already there replaces the value and keeps the place. A schema becomes a
dictionary of the names of its data types, and a dictionary of data types or of their names becomes
a schema.
-/
namespace QueryPlan

/-- Set the value of a name, in place when the name is there and at the end when it is not. -/
def setEntry {α : Type} (name : String) (value : α) : List (String × α) → List (String × α)
  | [] => [(name, value)]
  | e :: es => if e.1 = name then (name, value) :: es else e :: setEntry name value es

private theorem mem_names_setEntry {α : Type} {name other : String} {value : α}
    {es : List (String × α)} (h : other ∈ (setEntry name value es).map Prod.fst) :
    other = name ∨ other ∈ es.map Prod.fst := by
  induction es with
  | nil => simpa [setEntry] using h
  | cons e es ih =>
    rw [setEntry] at h
    split at h
    · next he => simp only [List.map_cons, List.mem_cons] at h ⊢; grind
    · simp only [List.map_cons, List.mem_cons] at h ⊢; grind

private theorem nodup_names_setEntry {α : Type} {name : String} {value : α}
    {es : List (String × α)} (h : (es.map Prod.fst).Nodup) :
    ((setEntry name value es).map Prod.fst).Nodup := by
  induction es with
  | nil => simp [setEntry]
  | cons e es ih =>
    rw [List.map_cons, List.nodup_cons] at h
    rw [setEntry]
    split
    · next he => simp only [List.map_cons, List.nodup_cons]; exact ⟨he ▸ h.1, h.2⟩
    · next he =>
      simp only [List.map_cons, List.nodup_cons]
      refine ⟨fun hm => ?_, ih h.2⟩
      rcases mem_names_setEntry hm with hm | hm
      · exact he hm
      · exact h.1 hm

/-- Values under distinct names, in the order in which the names came. -/
structure Dictionary (α : Type) where
  entries : List (String × α)
  nodup : (entries.map Prod.fst).Nodup

namespace Dictionary

def empty {α : Type} : Dictionary α :=
  ⟨[], List.nodup_nil⟩

def insert {α : Type} (d : Dictionary α) (name : String) (value : α) : Dictionary α :=
  ⟨setEntry name value d.entries, nodup_names_setEntry d.nodup⟩

def map {α β : Type} (f : α → β) (d : Dictionary α) : Dictionary β :=
  ⟨d.entries.map fun e => (e.1, f e.2), by simpa [Function.comp_def] using d.nodup⟩

@[simp] theorem entries_insert {α : Type} (d : Dictionary α) (name : String) (value : α) :
    (d.insert name value).entries = setEntry name value d.entries := rfl

@[simp] theorem entries_map {α β : Type} (f : α → β) (d : Dictionary α) :
    (d.map f).entries = d.entries.map fun e => (e.1, f e.2) := rfl

/-- The dictionary of a list of pairs: a repeated name keeps its first place and its last value. -/
def ofPairs {α : Type} (pairs : List (String × α)) : Dictionary α :=
  pairs.foldl (fun d p => d.insert p.1 p.2) empty

end Dictionary

/-- A data type as it is given when a schema is written down: itself or its name. -/
inductive TypeRef where
  | type (t : DataType)
  | name (s : String)
  deriving DecidableEq, Repr

def TypeRef.resolve : TypeRef → Except DataTypeError DataType
  | .type t => .ok t
  | .name s => DataType.ofName s

namespace Schema

/-- The schema with the given fields, in order; the first name of no data type is reported. -/
def ofRows (rows : List (String × TypeRef × Bool)) : Except DataTypeError Schema := do
  return ⟨← rows.mapM fun (name, type, nullable) => return ⟨name, ← type.resolve, nullable⟩⟩

def ofDictionary (d : Dictionary TypeRef) (nullable : Bool := false) :
    Except DataTypeError Schema :=
  ofRows (d.entries.map fun (name, type) => (name, type, nullable))

/-- The names of the data types; a repeated column name keeps its first place and its last type. -/
def toDictionary (s : Schema) : Dictionary String :=
  .ofPairs (s.fields.map fun f => (f.name, f.type.name))

end Schema
end QueryPlan
