import QueryPlan.Csv.Source
/-!
# Settings given one after another

A configuration can be changed again and again. What counts of each setting is the value that was
given last, so two changes in a row come to a single one, in which the second overrides the first.
-/
namespace QueryPlan
namespace Setting

def name : Setting → String
  | .batchSize _ => "batch_size"
  | .hasHeader _ => "has_header"
  | .delimiter _ => "delimiter"
  | .unknown name => name

/-- Two lists of settings in one: of what both name, the second one counts. -/
def overridden (first second : List Setting) : List Setting :=
  first.filter (fun s => s.name ∉ second.map name) ++ second

/-- Whether the settings of a name are the ones that a reader picks, apart from unknown ones. -/
def Picks {α : Type} (pick : Setting → Option α) (n : String) : Prop :=
  ∀ s : Setting, s.unknown? = none → ((pick s).isSome = true ↔ s.name = n)

theorem picks_batchSize : Picks batchSize? "batch_size" := by
  intro s
  cases s <;> simp [batchSize?, unknown?, name]

theorem picks_hasHeader : Picks hasHeader? "has_header" := by
  intro s
  cases s <;> simp [hasHeader?, unknown?, name]

theorem picks_delimiter : Picks delimiter? "delimiter" := by
  intro s
  cases s <;> simp [delimiter?, unknown?, name]

end Setting

namespace Config
variable {α : Type} {pick : Setting → Option α} {old : α} {first second changes : List Setting}

theorem lastOr_append : lastOr pick old (first ++ second) =
    lastOr pick (lastOr pick old first) second := by
  rw [lastOr, lastOr, lastOr, List.reverse_append, List.findSome?_append, Option.getD_or]

theorem lastOr_of_mem {s : Setting} (hs : s ∈ changes) (h : (pick s).isSome = true) (old' : α) :
    lastOr pick old changes = lastOr pick old' changes := by
  have hsome : (changes.reverse.findSome? pick).isSome = true := by
    rw [List.findSome?_isSome_iff]
    exact ⟨s, List.mem_reverse.2 hs, h⟩
  obtain ⟨a, ha⟩ := Option.isSome_iff_exists.1 hsome
  rw [lastOr, lastOr, ha, Option.getD_some, Option.getD_some]

theorem findSome?_filter {keep : Setting → Bool}
    (h : ∀ s ∈ changes, (pick s).isSome = true → keep s = true) :
    (changes.filter keep).findSome? pick = changes.findSome? pick := by
  induction changes with
  | nil => rfl
  | cons s rest ih =>
    obtain ⟨hs, hrest⟩ := List.forall_mem_cons.1 h
    rw [List.findSome?_cons, ← ih hrest]
    cases hp : pick s with
    | some a => rw [List.filter_cons_of_pos (hs (by rw [hp]; rfl)), List.findSome?_cons, hp]
    | none =>
      rw [List.filter_cons]
      split
      · rw [List.findSome?_cons, hp]
      · rfl

theorem lastOr_filter {keep : Setting → Bool}
    (h : ∀ s ∈ changes, (pick s).isSome = true → keep s = true) :
    lastOr pick old (changes.filter keep) = lastOr pick old changes := by
  rw [lastOr, lastOr, ← List.filter_reverse, findSome?_filter]
  exact fun s hs => h s (List.mem_reverse.1 hs)

theorem lastOr_overridden {n : String} (hp : Setting.Picks pick n)
    (hf : ∀ s ∈ first, s.unknown? = none) (hs : ∀ s ∈ second, s.unknown? = none) :
    lastOr pick old (Setting.overridden first second) =
      lastOr pick (lastOr pick old first) second := by
  rw [Setting.overridden, lastOr_append]
  by_cases hn : n ∈ second.map Setting.name
  · obtain ⟨s, hmem, hname⟩ := List.mem_map.1 hn
    exact lastOr_of_mem hmem ((hp s (hs s hmem)).2 hname) _
  · rw [lastOr_filter]
    intro s hmem hpick
    rw [(hp s (hf s hmem)).1 hpick]
    exact decide_eq_true hn

theorem firstUnknown_eq_none_iff :
    firstUnknown changes = none ↔ ∀ s ∈ changes, s.unknown? = none :=
  List.findSome?_eq_none_iff

theorem firstUnknown_overridden (h : firstUnknown first = none) :
    firstUnknown (Setting.overridden first second) = firstUnknown second := by
  have hkept : firstUnknown (first.filter fun s => s.name ∉ second.map Setting.name) = none := by
    rw [firstUnknown_eq_none_iff] at h ⊢
    exact fun s hs => h s (List.mem_filter.1 hs).1
  rw [firstUnknown] at hkept
  rw [Setting.overridden, firstUnknown, List.findSome?_append, hkept, Option.none_or]
  rfl

theorem ofValues_eq_ok_iff {batchSize : Int} {hasHeader : Bool} {delimiter : String} {c : Config} :
    ofValues batchSize hasHeader delimiter = .ok c ↔
      batchSize = c.batchSize ∧ hasHeader = c.hasHeader ∧ delimiter = c.delimiter := by
  rw [ofValues]
  split
  · next h =>
    constructor
    · intro heq
      cases heq
      exact ⟨by simp only; omega, rfl, rfl⟩
    · rintro ⟨rfl, rfl, rfl⟩
      rfl
  · next h =>
    constructor
    · intro heq
      cases heq
    · rintro ⟨rfl, -, -⟩
      exact absurd (Int.natCast_pos.2 c.batchSize_pos) h

variable {c c' : Config} {owner : SettingsOwner}

theorem withSettings_eq_ok_iff : c.withSettings changes owner = .ok c' ↔
    firstUnknown changes = none ∧
      lastOr Setting.batchSize? (c.batchSize : Int) changes = c'.batchSize ∧
      lastOr Setting.hasHeader? c.hasHeader changes = c'.hasHeader ∧
      lastOr Setting.delimiter? c.delimiter changes = c'.delimiter := by
  rw [withSettings, ← ofValues_eq_ok_iff]
  cases firstUnknown changes with
  | none => simp
  | some name => simp

theorem withSettings_withSettings {owner' : SettingsOwner} (h : c.withSettings first owner = .ok c') :
    c'.withSettings second owner' = c.withSettings (Setting.overridden first second) owner' := by
  obtain ⟨hfirst, hb, hh, hd⟩ := withSettings_eq_ok_iff.1 h
  rw [withSettings, withSettings, firstUnknown_overridden hfirst]
  cases hsecond : firstUnknown second with
  | some name => rfl
  | none =>
    have hf := firstUnknown_eq_none_iff.1 hfirst
    have hs := firstUnknown_eq_none_iff.1 hsecond
    simp only [lastOr_overridden Setting.picks_batchSize hf hs,
      lastOr_overridden Setting.picks_hasHeader hf hs,
      lastOr_overridden Setting.picks_delimiter hf hs, hb, hh, hd]

def settings (c : Config) : List Setting :=
  [.batchSize c.batchSize, .hasHeader c.hasHeader, .delimiter c.delimiter]

theorem withSettings_settings : c'.withSettings c.settings owner = .ok c :=
  withSettings_eq_ok_iff.2 ⟨rfl, rfl, rfl, rfl⟩

end Config

theorem CsvSource.ofSettings_settings (schema : Schema) (path : String) (c : Config) :
    ofSettings schema path c.settings = .ok ⟨schema, path, c⟩ := by
  rw [ofSettings, Config.withSettings_settings]
  rfl

end QueryPlan
