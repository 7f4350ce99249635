import QueryPlan.Proofs.Csv.Integers
/-!
# Cells that are missing

A cell of a column that converts is missing exactly when its text is, unless the column holds numbers
and the text stands for the indefinite one. Such a text has none of the characters that a number or a
word for a truth value cannot do without.
-/
namespace QueryPlan

namespace Loose

theorem mem_joinDigits {afterDigit : Bool} {cs ds : List Char} {c : Char}
    (h : joinDigits afterDigit cs = some ds) (hc : c ∈ cs) (hu : c ≠ '_') : c ∈ ds := by
  fun_induction joinDigits afterDigit cs generalizing ds with
  | case1 => cases hc
  | case2 afterDigit d cs hd ih =>
    obtain ⟨ds', hds, heq⟩ := Option.map_eq_some_iff.1 h
    subst heq
    have hm : c ∈ d :: cs := (List.mem_cons.1 hc).resolve_left hu
    cases List.mem_cons.1 hm with
    | inl hc => exact hc ▸ List.mem_cons_self
    | inr hc => exact List.mem_cons_of_mem _ (ih hds hc)
  | case3 => cases h
  | case4 => cases h
  | case5 afterDigit d cs _ hd ih =>
    obtain ⟨ds', hds, heq⟩ := Option.map_eq_some_iff.1 h
    subst heq
    cases List.mem_cons.1 hc with
    | inl hc => exact hc ▸ List.mem_cons_self
    | inr hc => exact List.mem_cons_of_mem _ (ih hds hc)

private theorem mem_dropWhile {p : Char → Bool} {cs : List Char} {c : Char} (hc : c ∈ cs)
    (hp : p c = false) : c ∈ cs.dropWhile p := by
  rw [← List.takeWhile_append_dropWhile (p := p) (l := cs)] at hc
  cases List.mem_append.1 hc with
  | inl h =>
    have hpc : p c = true := List.mem_takeWhile_imp h
    rw [hp] at hpc
    cases hpc
  | inr h => exact h

/-- What is left of a text where numbers may be written loosely: every character of ASCII that is
neither a blank nor an underscore. -/
theorem mem_chars? {t : String} {cs : List Char} {c : Char} (h : chars? t = some cs)
    (hc : c ∈ t.toList) (ha : c.toNat < 128) (hs : Numeral.isSpace c = false) (hu : c ≠ '_') :
    c ∈ cs := by
  have hsimple : c ∈ t.toList.map simplify := List.mem_map.2 ⟨c, hc, by simp [simplify, ha]⟩
  apply mem_joinDigits h _ hu
  rw [List.mem_reverse]
  apply mem_dropWhile _ hs
  rw [List.mem_reverse]
  exact mem_dropWhile hsimple hs

end Loose

namespace Csv

/-- A text that stands for the indefinite number, unless it marks a missing cell. -/
def IsIndefinite (t : String) : Prop :=
  Loose.real? t = some .indefinite

def IsTelling (c : Char) : Prop :=
  c.isDigit = true ∨ c.toLower = 'i' ∨ c.toLower = 't' ∨ c.toLower = 'f'

theorem IsIndefinite.sign_or_letter {t : String} (h : IsIndefinite t) : ∃ cs,
    Loose.chars? t = some cs ∧ ∀ c ∈ cs, c = '-' ∨ c = '+' ∨ c.toLower = 'n' ∨ c.toLower = 'a' := by
  obtain ⟨cs, hcs, h⟩ := Option.bind_eq_some_iff.1 h
  refine ⟨cs, hcs, fun c hc => ?_⟩
  obtain ⟨sign, heq, hsign, _⟩ := Numeral.exists_sign cs
  rw [heq, List.mem_append] at hc
  cases hc with
  | inl hc => exact (hsign c hc).imp_right .inl
  | inr hc =>
    dsimp only at h
    split at h
    · cases h
    · split at h
      · next hword =>
        have hl : (Numeral.takeSign cs).2.map Char.toLower = ['n', 'a', 'n'] := by
          rw [← String.toList_ofList (l := (Numeral.takeSign cs).2.map Char.toLower), hword]
          rfl
        have hm : c.toLower ∈ ['n', 'a', 'n'] := hl ▸ List.mem_map_of_mem hc
        simp only [List.mem_cons, List.not_mem_nil, or_false] at hm
        exact .inr (.inr (hm.elim .inl fun hm => hm.symm))
      · obtain ⟨n, _, hn⟩ := Option.bind_eq_some_iff.1 h
        cases hn

theorem IsTelling.plain {c : Char} (h : IsTelling c) :
    c.toNat < 128 ∧ Numeral.isSpace c = false ∧ c ≠ '_' := by
  have hu : c ≠ '_' := by
    intro hc
    subst hc
    rw [IsTelling] at h
    exact absurd h (by decide)
  cases h with
  | inl hd => exact ⟨Numeral.toNat_lt_of_isDigit hd, Numeral.isSpace_of_isDigit hd, hu⟩
  | inr h =>
    obtain ⟨hA, hz⟩ : 'A' ≤ c ∧ c ≤ 'z' := by
      rcases h with h | h | h
      · exact isLetter_of_toLower h (by decide)
      · exact isLetter_of_toLower h (by decide)
      · exact isLetter_of_toLower h (by decide)
    have hval : c.toNat ≤ 'z'.toNat := hz
    exact ⟨Nat.lt_of_le_of_lt hval (by decide), isSpace_of_letter hA, hu⟩

theorem IsTelling.toLower {c : Char} (h : IsTelling c) :
    c ≠ '-' ∧ c ≠ '+' ∧ c.toLower ≠ 'n' ∧ c.toLower ≠ 'a' := by
  cases h with
  | inl hd =>
    have hletter : ¬ ('A' ≤ c ∧ c ≤ 'z') := fun hc => not_isDigit_of_letter hc.1 hd
    refine ⟨?_, ?_, fun hc => hletter (isLetter_of_toLower hc (by decide)),
      fun hc => hletter (isLetter_of_toLower hc (by decide))⟩
    · intro hc
      subst hc
      exact absurd hd (by decide)
    · intro hc
      subst hc
      exact absurd hd (by decide)
  | inr h =>
    refine ⟨?_, ?_, ?_, ?_⟩
    · intro hc
      subst hc
      exact absurd h (by decide)
    · intro hc
      subst hc
      exact absurd h (by decide)
    · intro hc
      rw [hc] at h
      exact absurd h (by decide)
    · intro hc
      rw [hc] at h
      exact absurd h (by decide)

theorem IsIndefinite.not_telling {t : String} (h : IsIndefinite t) {c : Char}
    (hc : c ∈ t.toList) : ¬ IsTelling c := by
  intro htelling
  obtain ⟨cs, hcs, hall⟩ := h.sign_or_letter
  obtain ⟨ha, hs, hu⟩ := htelling.plain
  obtain ⟨hminus, hplus, hn, hletter⟩ := htelling.toLower
  rcases hall c (Loose.mem_chars? hcs hc ha hs hu) with hm | hm | hm | hm
  · exact hminus hm
  · exact hplus hm
  · exact hn hm
  · exact hletter hm

theorem takeSign_suffix (cs : List Char) : (Numeral.takeSign cs).2 <:+ cs := by
  obtain ⟨sign, hcs, _⟩ := Numeral.exists_sign cs
  exact ⟨sign, hcs.symm⟩

theorem mem_of_mem_fraction {cs : List Char} {c : Char}
    (hc : c ∈ (Numeral.takeFraction cs).1.getD []) : c ∈ cs ∧ c.isDigit = true := by
  unfold Numeral.takeFraction at hc
  split at hc
  · next rest =>
    have hm : c ∈ rest.takeWhile Char.isDigit := hc
    exact ⟨List.mem_cons_of_mem _ (List.takeWhile_subset _ hm), List.mem_takeWhile_imp hm⟩
  · cases hc

theorem exists_isDigit_of_ofChars? {cs : List Char} {n : Numeral}
    (h : Numeral.ofChars? cs = some n) : ∃ c ∈ cs, c.isDigit = true := by
  have hsuffix : (Numeral.takeSign (cs.dropWhile Numeral.isSpace)).2 <:+ cs :=
    (takeSign_suffix _).trans (List.dropWhile_suffix _)
  unfold Numeral.ofChars? at h
  dsimp only at h
  split at h
  · cases h
  · next hne =>
    rw [Bool.and_eq_true, not_and_or, List.isEmpty_iff, List.isEmpty_iff] at hne
    cases hne with
    | inl hwhole =>
      obtain ⟨c, hc⟩ := List.exists_mem_of_ne_nil _ hwhole
      exact ⟨c, hsuffix.subset (List.takeWhile_subset _ hc), List.mem_takeWhile_imp hc⟩
    | inr hfraction =>
      obtain ⟨c, hc⟩ := List.exists_mem_of_ne_nil _ hfraction
      obtain ⟨hm, hd⟩ := mem_of_mem_fraction hc
      exact ⟨c, hsuffix.subset ((List.dropWhile_suffix _).subset hm), hd⟩

theorem exists_telling_of_infinity? {t : String} (h : (infinity? t).isSome) :
    ∃ c ∈ t.toList, IsTelling c := by
  have hwords : ∀ w ∈ ["inf", "+inf", "infinity", "+infinity"] ++ ["-inf", "-infinity"],
      'i' ∈ w.toList := by
    decide +kernel
  have hmem : String.ofList (t.toList.map Char.toLower) ∈
      ["inf", "+inf", "infinity", "+infinity"] ++ ["-inf", "-infinity"] := by
    unfold infinity? at h
    dsimp only at h
    split at h
    · next hw => exact List.mem_append_left _ (List.contains_iff_mem.1 hw)
    · split at h
      · next hw => exact List.mem_append_right _ (List.contains_iff_mem.1 hw)
      · cases h
  have hi := hwords _ hmem
  rw [String.toList_ofList] at hi
  obtain ⟨c, hc, hlower⟩ := List.mem_map.1 hi
  exact ⟨c, hc, .inr (.inl hlower)⟩

theorem exists_telling_of_number? {t : String} (h : (number? t).isSome) :
    ∃ c ∈ t.toList, IsTelling c := by
  rw [number?, Option.isSome_or, Bool.or_eq_true] at h
  cases h with
  | inl h =>
    obtain ⟨x, hx⟩ := Option.isSome_iff_exists.1 h
    obtain ⟨n, hn, _⟩ := Option.bind_eq_some_iff.1 hx
    obtain ⟨c, hc, hd⟩ := exists_isDigit_of_ofChars? hn
    exact ⟨c, hc, .inl hd⟩
  | inr h => exact exists_telling_of_infinity? h

theorem exists_telling_of_word? {t : String} (h : (word? t).isSome) :
    ∃ c ∈ t.toList, IsTelling c := by
  obtain ⟨c, cs, ht, hc⟩ := head_of_word h
  exact ⟨c, by simp [ht], .inr (.inr hc)⟩

theorem exists_telling_of_integer? {t : String} (h : (integer? t).isSome) :
    ∃ c ∈ t.toList, IsTelling c := by
  obtain ⟨m, hm⟩ := Option.isSome_iff_exists.1 h
  obtain ⟨n, hn, _⟩ := Option.bind_eq_some_iff.1 hm
  obtain ⟨c, hc, hd⟩ := exists_isDigit_of_ofChars? hn
  exact ⟨c, hc, .inl hd⟩

theorem exists_telling_of_exactWord? {t : String} (h : (exactWord? t).isSome) :
    ∃ c ∈ t.toList, IsTelling c := by
  have hwords : ∀ w ∈ ["True", "TRUE", "true"] ++ ["False", "FALSE", "false"],
      w.toList.any (fun c => c.toLower = 't' ∨ c.toLower = 'f') = true := by
    decide +kernel
  obtain ⟨c, hc, hlower⟩ := List.any_eq_true.1 (hwords t (mem_of_exactWord? h))
  exact ⟨c, hc, .inr (.inr (of_decide_eq_true hlower))⟩

def LeavesMissing (type : DataType) (text : Option String) : Prop :=
  text = none ∨ type = .float64 ∧ ∃ t, text = some t ∧ IsIndefinite t

structure Tells (type : DataType) (text : Option String) (c : Cell) : Prop where
  missing : c = .missing ↔ LeavesMissing type text
  text : type = .utf8 → ∀ t, text = some t → c = .text t

section Columns
variable {type : DataType} {texts : Texts} {stored : Stored} {cells : List Cell}

theorem tells_none (type : DataType) : Tells type none .missing :=
  ⟨⟨fun _ => .inl rfl, fun _ => rfl⟩, fun _ _ h => by cases h⟩

/-- A cell that is not missing tells of a text that has a telling character. -/
theorem tells_some {t : String} {c : Cell} (hne : c ≠ .missing) (ht : type ≠ .utf8)
    (h : type ≠ .float64 ∨ ∃ a ∈ t.toList, IsTelling a) : Tells type (some t) c := by
  refine ⟨⟨fun hc => absurd hc hne, fun hm => ?_⟩, fun hu => absurd hu ht⟩
  obtain ⟨hfloat, u, hu, hind⟩ := hm.resolve_left (by simp)
  cases hu
  obtain ⟨a, ha, htelling⟩ := h.resolve_left fun hn => hn hfloat
  exact absurd htelling (hind.not_telling ha)

theorem tells_of_convert {f : String → Option Cell} (h : convert f texts = some cells)
    (hf : ∀ t c, f t = some c → Tells type (some t) c) : List.Forall₂ (Tells type) texts cells := by
  apply (convert_eq_some_iff.1 h).imp
  intro text c hcell
  cases text with
  | none =>
    cases hcell
    exact tells_none type
  | some t => exact hf t c hcell

theorem tells_of_complete (hc : texts.complete = true) (hl : texts.length = cells.length)
    (hne : .missing ∉ cells) (ht : type ≠ .utf8)
    (h : type ≠ .float64 ∨ ∀ t ∈ texts.present, ∃ a ∈ t.toList, IsTelling a) :
    List.Forall₂ (Tells type) texts cells := by
  rw [List.forall₂_iff_zip]
  refine ⟨hl, fun {text c} hm => ?_⟩
  obtain ⟨htext, hcell⟩ := List.of_mem_zip hm
  obtain ⟨t, hsome⟩ := Option.isSome_iff_exists.1 (List.all_eq_true.1 hc text htext)
  subst hsome
  apply tells_some (fun heq => hne (heq ▸ hcell)) ht
  exact h.imp_right fun hall => hall t (mem_present.2 htext)

theorem not_missing_of_convert {α : Type} {f : α → Option Cell} {xs : List α}
    (h : convert f (xs.map some) = some cells) (hf : ∀ a, f a ≠ some .missing) :
    .missing ∉ cells := by
  intro hm
  obtain ⟨x, hx, hcell⟩ := exists_of_mem_right (convert_eq_some_iff.1 h) hm
  obtain ⟨a, _, ha⟩ := List.mem_map.1 hx
  subst ha
  exact hf a hcell

private theorem tells_of_readText (h : readText texts = .ok stored) :
    List.Forall₂ (Tells .utf8) texts stored.2 := by
  cases h
  rw [List.forall₂_map_right_iff]
  apply List.forall₂_same.2
  intro text _
  cases text with
  | none => exact tells_none .utf8
  | some t => exact ⟨by simp [LeavesMissing], fun _ u hu => by cases hu; rfl⟩

private theorem tells_of_readAs {value : String → Int → Prop} (h : ReadAs value texts cells) :
    List.Forall₂ (Tells .int64) texts cells := by
  apply h.imp
  intro text c hcell
  cases text with
  | none =>
    cases hcell
    exact tells_none .int64
  | some t =>
    obtain ⟨n, hn, _⟩ := hcell
    subst hn
    exact tells_some (by simp) (by decide) (.inl (by decide))

private theorem tells_of_integersRead {g : Grammar} {nullable : Bool}
    (h : IntegersRead g nullable texts stored) : List.Forall₂ (Tells .int64) texts stored.2 := by
  cases h with
  | whole _ _ hread => exact tells_of_readAs hread
  | unsigned _ _ _ _ hread => exact tells_of_readAs hread
  | real _ _ hread => exact tells_of_readAs hread
  | other _ hread => exact tells_of_readAs hread

theorem tells_float {t : String} (x : Binary64) (h : ∃ a ∈ t.toList, IsTelling a) :
    Tells .float64 (some t) (.float x) :=
  tells_some (by simp) (by decide) (.inr h)

theorem tells_of_storedAs {f : String → Option Cell} {storage : Storage}
    (h : storedAs storage (convert f texts) = .ok stored)
    (hf : ∀ t c, f t = some c → Tells type (some t) c) :
    List.Forall₂ (Tells type) texts stored.2 := by
  obtain ⟨cells, hcells, hs⟩ := storedAs_eq_ok_iff.1 h
  subst hs
  exact tells_of_convert hcells hf

private theorem tells_boolean {α : Type} {g : String → Option α} {k : α → Bool} (t : String)
    (c : Cell) (h : ((g t).bind fun a => some (.boolean (k a))) = some c) :
    Tells .boolean (some t) c := by
  obtain ⟨a, _, ha⟩ := Option.bind_eq_some_iff.1 h
  cases ha
  exact tells_some (by simp) (by decide) (.inl (by decide))

private theorem tells_of_readBoolean (h : readBoolean texts = .ok stored) :
    List.Forall₂ (Tells .boolean) texts stored.2 := by
  unfold readBoolean at h
  split at h
  · cases h
  · next hc =>
    have hc : texts.complete = true := by simpa using hc
    split at h
    · next cells hcells =>
      cases h
      exact tells_of_convert hcells tells_boolean
    · split at h
      · next ns hw =>
        obtain ⟨cells, hcells, hs⟩ := storedAs_eq_ok_iff.1 h
        subst hs
        have hl := length_of_rangedValues hc (readWhole_signed hw)
        apply tells_of_complete hc _ _ (by decide) (.inl (by decide))
        · rw [← hl, ← (convert_eq_some_iff.1 hcells).length_eq, List.length_map]
        · apply not_missing_of_convert hcells
          intro n hn
          obtain ⟨b, _, hb⟩ := Option.bind_eq_some_iff.1 hn
          cases hb
      · apply tells_of_storedAs h
        intro t c hx
        obtain ⟨x, _, hn⟩ := Option.bind_eq_some_iff.1 hx
        obtain ⟨n, _, hb⟩ := Option.bind_eq_some_iff.1 hn
        exact tells_boolean (g := fun _ => bit? n) t c hb
      · cases h

private theorem tells_of_readStrictBoolean (h : readStrictBoolean texts = .ok stored) :
    List.Forall₂ (Tells .boolean) texts stored.2 := by
  have htrue : texts.complete = true →
      List.Forall₂ (Tells .boolean) texts (texts.map fun _ => .boolean true) := by
    intro hc
    exact tells_of_complete hc (List.length_map _).symm (by simp) (by decide) (.inl (by decide))
  unfold readStrictBoolean at h
  split at h
  · cases h
  · next hc =>
    have hc : texts.complete = true := by simpa using hc
    split at h
    · next ns hn =>
      obtain ⟨hns, hsome⟩ := readNumbers_cases hn
      rw [hns, convert_map_bind hsome] at h
      exact tells_of_storedAs h tells_boolean
    · next xs hn =>
      obtain ⟨hxs, hsome, _⟩ := readNumbers_cases hn
      rw [hxs, convert_map_bind hsome] at h
      exact tells_of_storedAs h tells_boolean
    · cases h
      exact htrue hc
    · split at h
      · exact tells_of_storedAs h tells_boolean
      · cases h
        exact htrue hc

private theorem tells_number {α : Type} {g : String → Option α} {k : α → Binary64}
    (hg : ∀ {t}, (g t).isSome → ∃ a ∈ t.toList, IsTelling a) (t : String) (c : Cell)
    (h : ((g t).bind fun a => some (.float (k a))) = some c) : Tells .float64 (some t) c := by
  obtain ⟨a, ha, hc⟩ := Option.bind_eq_some_iff.1 h
  cases hc
  exact tells_float _ (hg (by simp [ha]))

private theorem tells_loose (t : String) (c : Cell) (h : looseFloat? t = some c) :
    Tells .float64 (some t) c := by
  obtain ⟨r, hr, hc⟩ := Option.map_eq_some_iff.1 h
  refine ⟨?_, fun hu => by cases hu⟩
  cases r with
  | number x =>
    cases hc
    simp [LeavesMissing, IsIndefinite, hr]
  | indefinite =>
    cases hc
    simp [LeavesMissing, IsIndefinite, hr]

private theorem tells_of_ranged {least limit : Int} {ns : List Int}
    (hc : texts.complete = true) (h : rangedValues least limit texts.present = .ok ns) :
    List.Forall₂ (Tells .float64) texts (ns.map fun n => .float (.ofInt n)) := by
  apply tells_of_complete hc _ (by simp) (by decide)
  · refine .inr fun t ht => exists_telling_of_integer? ?_
    obtain ⟨n, _, hn⟩ := exists_of_mem_left (rangedValues_eq_ok_iff.1 h) ht
    simp [(integer?_of_readRanged hn).1]
  · rw [List.length_map, length_of_rangedValues hc h]

private theorem tells_of_readFloat64 (h : readFloat64 texts = .ok stored) :
    List.Forall₂ (Tells .float64) texts stored.2 := by
  unfold readFloat64 at h
  split at h
  · next cells hcells =>
    cases h
    exact tells_of_convert hcells (tells_number exists_telling_of_number?)
  · split at h
    · next cells hcells =>
      cases h
      exact tells_of_convert hcells (tells_number exists_telling_of_word?)
    · split at h
      · next ns hw =>
        split at h
        · next hc =>
          cases h
          exact tells_of_ranged hc (readWhole_signed hw)
        · cases h
      · next ns hw =>
        obtain ⟨hc, hv, _⟩ := readWhole_unsigned hw
        rw [if_pos hc] at h
        cases h
        exact tells_of_ranged hc hv
      · cases h

private theorem tells_of_readNullableFloat64 (h : readNullableFloat64 texts = .ok stored) :
    List.Forall₂ (Tells .float64) texts stored.2 := by
  unfold readNullableFloat64 at h
  split at h
  · cases h
  · exact tells_of_storedAs h tells_loose
  · next ns hn =>
    obtain ⟨hns, hsome⟩ := readNumbers_cases hn
    rw [hns, convert_map_bind hsome] at h
    exact tells_of_storedAs h (tells_number exists_telling_of_integer?)
  · next xs hn =>
    obtain ⟨hxs, hsome, _⟩ := readNumbers_cases hn
    rw [hxs, convert_map_bind hsome] at h
    exact tells_of_storedAs h (tells_number exists_telling_of_number?)

private theorem tells_of_readStrictFloat64 (h : readStrictFloat64 texts = .ok stored) :
    List.Forall₂ (Tells .float64) texts stored.2 := by
  unfold readStrictFloat64 at h
  split at h
  · next ns hn =>
    split at h
    · obtain ⟨hns, hsome⟩ := readNumbers_cases hn
      rw [hns, convert_map_bind hsome] at h
      exact tells_of_storedAs h (tells_number exists_telling_of_integer?)
    · exact tells_of_storedAs h (tells_number exists_telling_of_number?)
  · next xs hn =>
    obtain ⟨hxs, hsome, _⟩ := readNumbers_cases hn
    rw [hxs, convert_map_bind hsome] at h
    exact tells_of_storedAs h (tells_number exists_telling_of_number?)
  · split at h
    · exact tells_of_storedAs h tells_loose
    · cases h
  · split at h
    · exact tells_of_storedAs h (tells_number exists_telling_of_exactWord?)
    · exact tells_of_storedAs h tells_loose

/-- Every column that converts tells of its texts. -/
theorem Grammar.tells_of_readColumn {g : Grammar} {nullable : Bool}
    (h : g.readColumn type nullable texts = .ok stored) :
    List.Forall₂ (Tells type) texts stored.2 := by
  cases type with
  | utf8 =>
    cases g with
    | lenient => exact tells_of_readText h
    | strict => exact tells_of_readText (by cases nullable <;> exact h)
  | int64 => exact tells_of_integersRead (Grammar.integersRead h)
  | boolean =>
    cases nullable with
    | true =>
      have h : readNullableBoolean texts = .ok stored := by cases g <;> exact h
      exact tells_of_storedAs h tells_boolean
    | false =>
      cases g with
      | lenient => exact tells_of_readBoolean h
      | strict => exact tells_of_readStrictBoolean h
  | float64 =>
    cases nullable with
    | true => exact tells_of_readNullableFloat64 (by cases g <;> exact h)
    | false =>
      cases g with
      | lenient => exact tells_of_readFloat64 h
      | strict => exact tells_of_readStrictFloat64 h

end Columns

end Csv
end QueryPlan
