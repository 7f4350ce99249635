import Mathlib.Data.List.Induction
import QueryPlan.Proofs.Schema.Repetition
import QueryPlan.Schema.Dictionary
/-!
# Schemas as dictionaries and back

A dictionary made of pairs has their names, each at its first place, under the last value it was
given. A schema that becomes a dictionary and a schema again has therefore lost its repetitions and
the nullability of its fields, and nothing else. A dictionary whose values denote data types becomes
a schema and the dictionary of their names.
-/
namespace QueryPlan

section Entries
variable {α : Type} {name : String} {value : α} {es : List (String × α)}

theorem names_setEntry : (setEntry name value es).map Prod.fst =
    if name ∈ es.map Prod.fst then es.map Prod.fst else es.map Prod.fst ++ [name] := by
  induction es with
  | nil => rfl
  | cons e es ih =>
    rw [setEntry, List.map_cons]
    by_cases he : e.1 = name
    · rw [if_pos he, List.map_cons, if_pos (he ▸ List.mem_cons_self), he]
    · rw [if_neg he, List.map_cons, ih]
      have hmem : name ∈ e.1 :: es.map Prod.fst ↔ name ∈ es.map Prod.fst := by
        simp [Ne.symm he]
      by_cases hm : name ∈ es.map Prod.fst
      · rw [if_pos hm, if_pos (hmem.2 hm)]
      · rw [if_neg hm, if_neg fun h => hm (hmem.1 h), List.cons_append]

theorem mem_setEntry (hn : (es.map Prod.fst).Nodup) {e : String × α}
    (h : e ∈ setEntry name value es) : e = (name, value) ∨ e.1 ≠ name ∧ e ∈ es := by
  induction es with
  | nil => exact .inl (List.mem_singleton.1 h)
  | cons a es ih =>
    rw [List.map_cons, List.nodup_cons] at hn
    rw [setEntry] at h
    split at h
    · next ha =>
      rcases List.mem_cons.1 h with h | h
      · exact .inl h
      · have hne : e.1 ≠ name := fun he => hn.1 (List.mem_map.2 ⟨e, h, he.trans ha.symm⟩)
        exact .inr ⟨hne, List.mem_cons_of_mem _ h⟩
    · next ha =>
      rcases List.mem_cons.1 h with rfl | h
      · exact .inr ⟨ha, List.mem_cons_self⟩
      · exact (ih hn.2 h).imp_right fun hold => ⟨hold.1, List.mem_cons_of_mem _ hold.2⟩

theorem setEntry_of_not_mem (h : name ∉ es.map Prod.fst) :
    setEntry name value es = es ++ [(name, value)] := by
  induction es with
  | nil => rfl
  | cons e es ih =>
    rw [List.map_cons, List.mem_cons, not_or] at h
    rw [setEntry, if_neg (Ne.symm h.1), ih h.2, List.cons_append]

end Entries

namespace Dictionary
variable {α : Type} {pairs : List (String × α)}

def names (d : Dictionary α) : List String :=
  d.entries.map Prod.fst

theorem ofPairs_concat (pairs : List (String × α)) (p : String × α) :
    ofPairs (pairs ++ [p]) = (ofPairs pairs).insert p.1 p.2 := by
  rw [ofPairs, List.foldl_append]
  rfl

theorem names_ofPairs (pairs : List (String × α)) :
    (ofPairs pairs).names = (pairs.map Prod.fst).eraseDups := by
  induction pairs using List.reverseRecOn with
  | nil => rfl
  | append_singleton pairs p ih =>
    have hnames : (ofPairs pairs).entries.map Prod.fst = (pairs.map Prod.fst).eraseDups := ih
    rw [ofPairs_concat, names, entries_insert, names_setEntry, hnames, List.map_append,
      List.map_singleton, List.eraseDups_append]
    by_cases hp : p.1 ∈ pairs.map Prod.fst
    · rw [if_pos (List.mem_eraseDups.2 hp)]
      simp [List.removeAll, hp]
    · rw [if_neg fun h => hp (List.mem_eraseDups.1 h)]
      simp [List.removeAll, hp, List.eraseDups_cons]

theorem entries_ofPairs_of_nodup (h : (pairs.map Prod.fst).Nodup) :
    (ofPairs pairs).entries = pairs := by
  induction pairs using List.reverseRecOn with
  | nil => rfl
  | append_singleton pairs p ih =>
    rw [List.map_append, List.map_singleton, List.nodup_append] at h
    obtain ⟨hpairs, -, hne⟩ := h
    have hp : p.1 ∉ (ofPairs pairs).entries.map Prod.fst := by
      rw [ih hpairs]
      exact fun hm => hne _ hm _ (List.mem_singleton_self _) rfl
    rw [ofPairs_concat, entries_insert, setEntry_of_not_mem hp, ih hpairs]

theorem last_of_mem_ofPairs {e : String × α} (h : e ∈ (ofPairs pairs).entries) :
    ∃ before after, pairs = before ++ e :: after ∧ ∀ p ∈ after, p.1 ≠ e.1 := by
  induction pairs using List.reverseRecOn with
  | nil => cases h
  | append_singleton pairs p ih =>
    rw [ofPairs_concat, entries_insert] at h
    rcases mem_setEntry (ofPairs pairs).nodup h with rfl | ⟨hne, h⟩
    · exact ⟨pairs, [], rfl, by simp⟩
    · obtain ⟨before, after, rfl, hafter⟩ := ih h
      refine ⟨before, after ++ [p], by simp, ?_⟩
      rw [List.forall_mem_append, List.forall_mem_singleton]
      exact ⟨hafter, Ne.symm hne⟩

end Dictionary

inductive TypeRef.Denotes : TypeRef → DataType → Prop where
  | type (t : DataType) : Denotes (.type t) t
  | name (t : DataType) : Denotes (.name t.name) t

theorem DataType.ofName_eq_ok_iff {name : String} {t : DataType} :
    ofName name = .ok t ↔ name = t.name := by
  constructor
  · intro h
    rw [ofName] at h
    split at h
    · next ht =>
      cases h
      have hname := List.find?_some ht
      exact (beq_iff_eq.1 hname).symm
    · cases h
  · rintro rfl
    exact ofName_name t

theorem TypeRef.resolve_eq_ok_iff {r : TypeRef} {t : DataType} :
    r.resolve = .ok t ↔ r.Denotes t := by
  cases r with
  | type t' =>
    constructor
    · intro h
      cases h
      exact .type _
    · intro h
      cases h
      rfl
  | name s =>
    rw [resolve, DataType.ofName_eq_ok_iff]
    constructor
    · rintro rfl
      exact .name t
    · intro h
      cases h
      rfl

structure Field.MadeOf (b : Bool) (e : String × TypeRef) (f : Field) : Prop where
  name : f.name = e.1
  type : e.2.Denotes f.type
  nullable : f.nullable = b

namespace Schema
variable {s t : Schema} {d : Dictionary TypeRef} {b : Bool}

theorem ofDictionary_eq_ok_iff :
    ofDictionary d b = .ok s ↔ List.Forall₂ (Field.MadeOf b) d.entries s.fields := by
  rw [ofDictionary, ofRows, bind_eq_ok_iff]
  simp only [mapM_eq_ok_iff, List.forall₂_map_left_iff, bind_eq_ok_iff, TypeRef.resolve_eq_ok_iff]
  constructor
  · rintro ⟨fields, hfields, h⟩
    cases h
    refine hfields.imp fun e f => ?_
    rintro ⟨type, htype, hf⟩
    cases hf
    exact ⟨rfl, htype, rfl⟩
  · intro h
    refine ⟨s.fields, h.imp fun e f hf => ?_, rfl⟩
    obtain ⟨name, type, nullable⟩ := f
    obtain ⟨rfl, htype, rfl⟩ := hf
    exact ⟨type, htype, rfl⟩

theorem exists_ofDictionary_iff :
    (∃ s, ofDictionary d b = .ok s) ↔ ∀ e ∈ d.entries, ∃ type, e.2.Denotes type := by
  simp only [ofDictionary_eq_ok_iff]
  constructor
  · rintro ⟨s, h⟩ e he
    obtain ⟨f, -, hf⟩ := exists_of_mem_left h he
    exact ⟨f.type, hf.type⟩
  · intro h
    have hmade : ∀ e ∈ d.entries, ∃ f, Field.MadeOf b e f := by
      intro e he
      obtain ⟨type, htype⟩ := h e he
      exact ⟨⟨e.1, type, b⟩, rfl, htype, rfl⟩
    obtain ⟨fields, hfields⟩ := exists_forall₂ hmade
    exact ⟨⟨fields⟩, hfields⟩

theorem names_of_ofDictionary (h : ofDictionary d b = .ok s) : s.names = d.names :=
  (map_eq_map_of_forall₂ (ofDictionary_eq_ok_iff.1 h) fun _ _ hf => hf.name.symm).symm

/-- A schema under the nullability `b` that has kept, of the fields of each name, the first place and
the last type. -/
structure Rebuilds (s : Schema) (b : Bool) (t : Schema) : Prop where
  names : t.names = s.names.eraseDups
  nullable : ∀ g ∈ t.fields, g.nullable = b
  last : ∀ g ∈ t.fields, ∃ before f after, s.fields = before ++ f :: after ∧ f.name = g.name ∧
    f.type = g.type ∧ ∀ h ∈ after, h.name ≠ g.name

theorem names_toDictionary (s : Schema) : s.toDictionary.names = s.names.eraseDups := by
  rw [toDictionary, Dictionary.names_ofPairs, List.map_map]
  rfl

theorem last_of_mem_toDictionary {e : String × String} (h : e ∈ s.toDictionary.entries) :
    ∃ before f after, s.fields = before ++ f :: after ∧ f.name = e.1 ∧ f.type.name = e.2 ∧
      ∀ g ∈ after, g.name ≠ e.1 := by
  obtain ⟨before, after, hsplit, hafter⟩ := Dictionary.last_of_mem_ofPairs h
  obtain ⟨front, rest, hfields, -, hrest⟩ := List.map_eq_append_iff.1 hsplit
  obtain ⟨f, back, rfl, rfl, rfl⟩ := List.map_eq_cons_iff.1 hrest
  exact ⟨front, f, back, hfields, rfl, rfl, fun g hg => hafter _ (List.mem_map.2 ⟨g, hg, rfl⟩)⟩

theorem entries_toDictionary_of_nodup (h : s.names.Nodup) :
    s.toDictionary.entries = s.fields.map fun f => (f.name, f.type.name) := by
  apply Dictionary.entries_ofPairs_of_nodup
  rwa [List.map_map]

theorem exists_ofDictionary_toDictionary (s : Schema) (b : Bool) :
    ∃ t, ofDictionary (s.toDictionary.map .name) b = .ok t := by
  refine exists_ofDictionary_iff.2 fun e he => ?_
  obtain ⟨entry, hentry, rfl⟩ := List.mem_map.1 he
  obtain ⟨-, f, -, -, -, htype, -⟩ := last_of_mem_toDictionary hentry
  exact ⟨f.type, htype ▸ .name f.type⟩

theorem rebuilds_of_ofDictionary (h : ofDictionary (s.toDictionary.map .name) b = .ok t) :
    s.Rebuilds b t := by
  have hmade : ∀ g ∈ t.fields, ∃ e ∈ s.toDictionary.entries, Field.MadeOf b (e.1, .name e.2) g := by
    intro g hg
    obtain ⟨e, he, hmade⟩ := exists_of_mem_right (ofDictionary_eq_ok_iff.1 h) hg
    obtain ⟨entry, hentry, rfl⟩ := List.mem_map.1 he
    exact ⟨entry, hentry, hmade⟩
  refine ⟨?_, fun g hg => ?_, fun g hg => ?_⟩
  · rw [names_of_ofDictionary h, ← names_toDictionary, Dictionary.names, Dictionary.entries_map,
      List.map_map]
    rfl
  · obtain ⟨e, -, hmade⟩ := hmade g hg
    exact hmade.nullable
  · obtain ⟨e, he, hmade⟩ := hmade g hg
    obtain ⟨before, f, after, hsplit, hname, htype, hafter⟩ := last_of_mem_toDictionary he
    have hsame : f.type = g.type := by
      have hresolve := TypeRef.resolve_eq_ok_iff.2 hmade.type
      rw [← htype, TypeRef.resolve, DataType.ofName_name] at hresolve
      exact Except.ok.inj hresolve
    exact ⟨before, f, after, hsplit, hname.trans hmade.name.symm, hsame, hmade.name ▸ hafter⟩

theorem ofDictionary_toDictionary (hn : s.names.Nodup) (hb : ∀ f ∈ s.fields, f.nullable = b) :
    ofDictionary (s.toDictionary.map .name) b = .ok s := by
  rw [ofDictionary_eq_ok_iff, Dictionary.entries_map, entries_toDictionary_of_nodup hn, List.map_map,
    List.forall₂_map_left_iff, List.forall₂_same]
  intro f hf
  exact ⟨rfl, .name f.type, hb f hf⟩

theorem toDictionary_of_ofDictionary (h : ofDictionary d b = .ok s) :
    List.Forall₂ (fun e e' => e'.1 = e.1 ∧ ∃ type, e.2.Denotes type ∧ e'.2 = type.name)
      d.entries s.toDictionary.entries := by
  have hn : s.names.Nodup := names_of_ofDictionary h ▸ d.nodup
  rw [entries_toDictionary_of_nodup hn, List.forall₂_map_right_iff]
  exact (ofDictionary_eq_ok_iff.1 h).imp fun e f hf => ⟨hf.name, f.type, hf.type, rfl⟩

/-- A schema that becomes a dictionary and a schema again keeps of each name the first place and the
last type. It is the same schema exactly when no name repeats and all fields are of the nullability
that is asked for. A dictionary becomes a schema and then the dictionary of the names of its types,
exactly when all its values denote types. -/
theorem dictionary_round_trip (b : Bool) :
    (∀ s : Schema, ∃ t, ofDictionary (s.toDictionary.map .name) b = .ok t ∧ s.Rebuilds b t ∧
      (t = s ↔ s.names.Nodup ∧ ∀ f ∈ s.fields, f.nullable = b)) ∧
    ∀ d : Dictionary TypeRef, (∃ s, ofDictionary d b = .ok s ∧
        List.Forall₂ (fun e e' => e'.1 = e.1 ∧ ∃ type, e.2.Denotes type ∧ e'.2 = type.name)
          d.entries s.toDictionary.entries) ↔
      ∀ e ∈ d.entries, ∃ type, e.2.Denotes type := by
  constructor
  · intro s
    obtain ⟨t, ht⟩ := exists_ofDictionary_toDictionary s b
    have hrebuilds := rebuilds_of_ofDictionary ht
    refine ⟨t, ht, hrebuilds, ?_, ?_⟩
    · rintro rfl
      refine ⟨?_, hrebuilds.nullable⟩
      rw [hrebuilds.names]
      exact nodup_eraseDups _
    · rintro ⟨hn, hb⟩
      exact Except.ok.inj (ht.symm.trans (ofDictionary_toDictionary hn hb))
  · intro d
    rw [← exists_ofDictionary_iff]
    constructor
    · rintro ⟨s, hs, -⟩
      exact ⟨s, hs⟩
    · rintro ⟨s, hs⟩
      exact ⟨s, hs, toDictionary_of_ofDictionary hs⟩

/-- The second `a` has given its type to the first. -/
example : ofDictionary ((⟨[⟨"a", .int64, true⟩, ⟨"b", .boolean, false⟩, ⟨"a", .utf8, true⟩]⟩ :
    Schema).toDictionary.map .name) true =
      .ok ⟨[⟨"a", .utf8, true⟩, ⟨"b", .boolean, true⟩]⟩ := rfl

end Schema
end QueryPlan
