import QueryPlan.Proofs.Csv.Groupwise
import QueryPlan.Proofs.Csv.Integers
/-!
# Required columns read as nullable ones

A nullable column takes fewer texts than a required one. Its integers are numbers that are whole, and
its truth values are written in one of ten ways, where a required column also takes words for
integers and words in any letter case. But what a nullable column takes it reads as the required one
does, unless a whole number beyond the signed range makes the required one unsigned, or a strict text
mixes words for truth values with numbers.
-/
namespace QueryPlan.Csv

variable {texts : Texts}

/-- The texts that a nullable column of integers takes: numbers that are all whole, either as they are
written or by their values in the signed range. -/
structure Texts.TakenAsIntegers (texts : Texts) : Prop where
  numbers : ∀ t ∈ texts.present, (number? t).isSome
  range : ¬ texts.AnyWhole fun n => n < -signedLimit ∨ unsignedLimit ≤ n
  apart : ¬ ((none ∈ texts ∨ texts.AnyWhole (· < 0)) ∧ texts.AnyWhole (signedLimit ≤ ·))
  whole : (∀ t ∈ texts.present, (integer? t).isSome) ∨
    ∀ t ∈ texts.present, ((number? t).bind wholeSigned?).isSome

theorem takenAsIntegers_iff : texts.TakenAsIntegers ↔ clashes false false texts = some false ∧
    ((∀ t ∈ texts.present, (integer? t).isSome) ∨
      ∀ t ∈ texts.present, ((number? t).bind wholeSigned?).isSome) := by
  simp only [clashes_eq_false_iff, Bool.false_eq_true, false_or]
  constructor
  · intro h
    exact ⟨⟨h.numbers, h.range, h.apart⟩, h.whole⟩
  · intro h
    exact ⟨h.1.1, h.1.2.1, h.1.2.2, h.2⟩

instance (texts : Texts) : Decidable texts.TakenAsIntegers :=
  decidable_of_iff _ takenAsIntegers_iff.symm

private theorem readNullableInt64_of_integers (h : clashes false false texts = some false)
    (hall : ∀ t ∈ texts.present, (integer? t).isSome) :
    ∃ stored, readNullableInt64 texts = .ok stored := by
  have hn : readNumbers texts = some (.whole (texts.map (·.bind integer?))) := by
    simp only [readNumbers, h, Option.bind_eq_bind, Option.bind_some, Bool.false_eq_true, if_false]
    rw [if_pos (List.all_eq_true.2 hall)]
    rfl
  rw [readNullableInt64, hn]
  exact exists_storedAs_iff.2 (exists_convert fun _ _ => rfl)

private theorem readNullableInt64_of_numbers (h : clashes false false texts = some false)
    (hany : ¬ ∀ t ∈ texts.present, (integer? t).isSome) :
    (∃ stored, readNullableInt64 texts = .ok stored) ↔
      ∀ t ∈ texts.present, ((number? t).bind wholeSigned?).isSome := by
  have hn : readNumbers texts = some (.real (texts.map (·.bind number?))) := by
    simpa [readNumbers, h] using hany
  have hcell : ∀ t, ((number? t).bind fun x => (wholeSigned? x).bind fun n =>
      some (Cell.integer n)).isSome = ((number? t).bind wholeSigned?).isSome := by
    intro t
    rw [← Option.bind_assoc]
    cases (number? t).bind wholeSigned? <;> rfl
  have hconvert : (∃ cells, convert (fun x => (wholeSigned? x).bind fun n => some (.integer n))
      (texts.map (·.bind number?)) = some cells) ↔
      ∀ t ∈ texts.present, ((number? t).bind wholeSigned?).isSome := by
    rw [convert_map_bind (clashes_eq_false_iff.1 h).1, exists_convert_iff]
    simp only [hcell, mem_present]
  rw [readNullableInt64, hn, ← hconvert]
  cases hc : convert (fun x => (wholeSigned? x).bind fun n => some (.integer n))
      (texts.map (·.bind number?)) with
  | some cells => simp [hc]
  | none => simp [hc, refuseReals_ne_ok]

theorem exists_readNullableInt64_iff :
    (∃ stored, readNullableInt64 texts = .ok stored) ↔ texts.TakenAsIntegers := by
  rw [takenAsIntegers_iff]
  cases hc : clashes false false texts with
  | none => simp [readNullableInt64, readNumbers, hc, malformed]
  | some clash =>
    cases clash with
    | true => simp [readNullableInt64, readNumbers, hc, refused_ne_ok]
    | false =>
      by_cases hall : ∀ t ∈ texts.present, (integer? t).isSome
      · exact iff_of_true (readNullableInt64_of_integers hc hall) ⟨rfl, .inl hall⟩
      · rw [readNullableInt64_of_numbers hc hall]
        simp [hall]

section Agreement
variable {g : Grammar} {cells cells' : List Cell} {stored stored' : Stored}
  {value : String → Int → Prop}

theorem ReadAs.unique (h : ReadAs value texts cells) (h' : ReadAs value texts cells')
    (hv : ∀ t m n, value t m → value t n → m = n) : cells = cells' := by
  apply List.right_unique_forall₂' _ h h'
  intro text c c' hc hc'
  cases text with
  | none => exact hc.trans hc'.symm
  | some t =>
    obtain ⟨m, hm, hvm⟩ := hc
    obtain ⟨n, hn, hvn⟩ := hc'
    rw [hm, hn, hv t m n hvm hvn]

theorem wrappedValue_unique {t : String} {m n : Int} (hm : wrappedValue t m)
    (hn : wrappedValue t n) : m = n := by
  obtain ⟨k, hk, hm⟩ := hm
  obtain ⟨l, hl, hn⟩ := hn
  rw [hm, hn, Option.some.inj (hk.symm.trans hl)]

theorem IntegersRead.cells_eq (h : IntegersRead g false texts stored)
    (h' : IntegersRead g true texts stored') (hall : ∀ t ∈ texts.present, (number? t).isSome)
    (hbig : g = .lenient → ¬ texts.AnyWhole (signedLimit ≤ ·)) : stored'.2 = stored.2 := by
  have hnumber : ¬ ∃ t ∈ texts.present, number? t = none := by
    simpa [Option.isSome_iff_ne_none] using hall
  have hmixed : (∃ t ∈ texts.present, integer? t = none) →
      ¬ ∀ t ∈ texts.present, (integer? t).isSome := by
    simp
  cases h with
  | unsigned hg _ _ hany => exact absurd hany (hbig hg)
  | other hany => exact absurd hany hnumber
  | whole hwhole _ hread =>
    cases h' with
    | whole _ _ hread' => exact hread'.unique hread fun _ _ _ => wrappedValue_unique
    | real _ hany _ => exact absurd hwhole (hmixed hany)
    | unsigned _ hn => cases hn
    | other hany => exact absurd hany hnumber
  | real _ hany hread =>
    cases h' with
    | whole hwhole _ _ => exact absurd hwhole (hmixed hany)
    | real _ _ hread' => exact hread'.unique hread fun _ _ _ => truncatedValue_unique
    | unsigned _ hn => cases hn
    | other hany => exact absurd hany hnumber

end Agreement

section Truths
variable {cells : List Cell} {stored : Stored}

def Texts.TakenAsTruths (texts : Texts) : Prop :=
  ∀ t ∈ texts.present, (truthText? t).isSome

def Texts.truthCells? (texts : Texts) : Option (List Cell) :=
  convert (fun t => return .boolean (← truthText? t)) texts

instance (texts : Texts) : Decidable texts.TakenAsTruths :=
  inferInstanceAs (Decidable (∀ t ∈ texts.present, (truthText? t).isSome))

structure WrittenAsWord (t : String) (b : Bool) : Prop where
  exact : exactWord? t = some b
  word : word? t = some b
  number : number? t = none
  integer : integer? t = none

structure WrittenAsNumber (t : String) (b : Bool) : Prop where
  exact : exactWord? t = none
  word : word? t = none
  value : ((number? t).bind Binary64.toInt?).bind bit? = some b
  rank : (number? t).map (fun x => x.rank != 0) = some b
  integer : ∀ n, integer? t = some n → bit? n = some b ∧ (n != 0) = b

theorem exists_readNullableBoolean_iff :
    (∃ stored, readNullableBoolean texts = .ok stored) ↔ texts.TakenAsTruths := by
  rw [readNullableBoolean, exists_storedAs_iff, exists_convert_iff, Texts.TakenAsTruths]
  simp only [mem_present]
  refine forall_congr' fun t => imp_congr_right fun _ => ?_
  cases truthText? t <;> rfl

theorem mem_of_truthText? {t : String} (h : (truthText? t).isSome) :
    t ∈ ["1", "1.0", "0", "0.0"] ++ (["True", "TRUE", "true"] ++ ["False", "FALSE", "false"]) := by
  unfold truthText? at h
  by_cases hone : t = "1" ∨ t = "1.0"
  · exact List.mem_append_left _ (by cases hone <;> simp [*])
  · rw [if_neg hone] at h
    by_cases hzero : t = "0" ∨ t = "0.0"
    · exact List.mem_append_left _ (by cases hzero <;> simp [*])
    · rw [if_neg hzero] at h
      exact List.mem_append_right _ (mem_of_exactWord? h)

theorem writtenAs_of_truthText? {t : String} {b : Bool} (h : truthText? t = some b) :
    WrittenAsWord t b ∨ WrittenAsNumber t b := by
  have hall : ∀ t ∈ ["1", "1.0", "0", "0.0"] ++
      (["True", "TRUE", "true"] ++ ["False", "FALSE", "false"]), ∀ b : Bool, truthText? t = some b →
      (exactWord? t = some b ∧ word? t = some b ∧ number? t = none ∧ integer? t = none) ∨
      (exactWord? t = none ∧ word? t = none ∧
        ((number? t).bind Binary64.toInt?).bind bit? = some b ∧
        (number? t).map (fun x => x.rank != 0) = some b ∧
        ∀ n ∈ integer? t, bit? n = some b ∧ (n != 0) = b) := by
    decide +kernel
  cases hall t (mem_of_truthText? (by simp [h])) b h with
  | inl hw => exact .inl ⟨hw.1, hw.2.1, hw.2.2.1, hw.2.2.2⟩
  | inr hn => exact .inr ⟨hn.1, hn.2.1, hn.2.2.1, hn.2.2.2.1, hn.2.2.2.2⟩

theorem truthText?_of_word {t : String} (h : (truthText? t).isSome) (hw : (word? t).isSome) :
    word? t = truthText? t := by
  obtain ⟨b, hb⟩ := Option.isSome_iff_exists.1 h
  cases writtenAs_of_truthText? hb with
  | inl h => rw [h.word, hb]
  | inr h => simp [h.word] at hw

theorem truthText?_of_exactWord {t : String} (h : (truthText? t).isSome)
    (hw : (exactWord? t).isSome) : exactWord? t = truthText? t := by
  obtain ⟨b, hb⟩ := Option.isSome_iff_exists.1 h
  cases writtenAs_of_truthText? hb with
  | inl h => rw [h.exact, hb]
  | inr h => simp [h.exact] at hw

theorem truthText?_of_number {t : String} (h : (truthText? t).isSome) (hn : (number? t).isSome) :
    ((number? t).bind Binary64.toInt?).bind bit? = truthText? t ∧
      (number? t).map (fun x => x.rank != 0) = truthText? t := by
  obtain ⟨b, hb⟩ := Option.isSome_iff_exists.1 h
  cases writtenAs_of_truthText? hb with
  | inl h => simp [h.number] at hn
  | inr h =>
    rw [h.value, h.rank, hb]
    exact ⟨rfl, rfl⟩

theorem truthText?_of_integer {t : String} (h : (truthText? t).isSome) (hn : (integer? t).isSome) :
    (integer? t).bind bit? = truthText? t ∧ (integer? t).map (· != 0) = truthText? t := by
  obtain ⟨b, hb⟩ := Option.isSome_iff_exists.1 h
  obtain ⟨n, hn'⟩ := Option.isSome_iff_exists.1 hn
  cases writtenAs_of_truthText? hb with
  | inl h => simp [h.integer] at hn
  | inr h =>
    obtain ⟨hbit, hzero⟩ := h.integer n hn'
    simp [hn', hb, hbit, hzero]

theorem isSome_of_convert {f : String → Option Cell} (h : convert f texts = some cells) :
    ∀ t ∈ texts.present, (f t).isSome := by
  intro t ht
  exact exists_convert_iff.1 ⟨cells, h⟩ t (mem_present.1 ht)

/-- Where a way to tell truth values agrees with the ten texts on all it knows of them, it gives the
cells that they give. -/
theorem truths_of_convert {w : String → Option Bool} (hs : texts.TakenAsTruths)
    (hw : ∀ t, (truthText? t).isSome → (w t).isSome → w t = truthText? t)
    (h : convert (fun t => (w t).bind fun b => some (.boolean b)) texts = some cells) :
    texts.truthCells? = some cells := by
  rw [← h]
  apply convert_congr
  intro t ht
  have hsome := isSome_of_convert h t ht
  cases hwt : w t with
  | none => simp [hwt] at hsome
  | some b =>
    rw [← hw t (hs t ht) (by simp [hwt]), hwt]
    rfl

theorem convert_integers {f : Int → Option Cell} {ns : List Int} (hc : texts.complete = true)
    (h : List.Forall₂ (fun t n => integer? t = some n) texts.present ns) :
    convert f (ns.map some) = convert (fun t => (integer? t).bind f) texts := by
  rw [eq_map_some_of_complete hc, convert_map_some, convert_map_some]
  refine (mapM_eq_mapM_of_forall₂ h fun t n ht => ?_).symm
  rw [ht, Option.bind_some]

private theorem truths_of_readBoolean (hs : texts.TakenAsTruths) (h : readBoolean texts = .ok stored) :
    texts.truthCells? = some stored.2 := by
  unfold readBoolean at h
  split at h
  · cases h
  · next hc =>
    rw [Bool.not_eq_true', Bool.not_eq_false] at hc
    split at h
    · next converted hw =>
      cases h
      exact truths_of_convert hs (fun _ => truthText?_of_word) hw
    · split at h
      · next ns hw =>
        obtain ⟨cells, hcells, hstored⟩ := storedAs_eq_ok_iff.1 h
        have hns := (rangedValues_eq_ok_iff.1 (readWhole_signed hw)).imp fun t n ht =>
          (integer?_of_readRanged ht).1
        rw [convert_integers hc hns] at hcells
        rw [hstored]
        simp only [bind, pure, ← Option.bind_assoc] at hcells
        refine truths_of_convert hs (fun t ht hw => ?_) hcells
        exact (truthText?_of_integer ht (Option.isSome_of_isSome_bind hw)).1
      · obtain ⟨cells, hcells, hstored⟩ := storedAs_eq_ok_iff.1 h
        rw [hstored]
        simp only [bind, pure, ← Option.bind_assoc] at hcells
        refine truths_of_convert hs (fun t ht hw => ?_) hcells
        have hn := Option.isSome_of_isSome_bind (Option.isSome_of_isSome_bind hw)
        exact (truthText?_of_number ht hn).1
      · cases h

def Texts.OfOneKind (texts : Texts) : Prop :=
  (∀ t ∈ texts.present, (number? t).isSome) ∨ (∀ t ∈ texts.present, (exactWord? t).isSome) ∨
    ∀ t ∈ texts.present, truthText? t = some true

instance (texts : Texts) : Decidable texts.OfOneKind :=
  inferInstanceAs (Decidable (_ ∨ _ ∨ _))

theorem not_anyWhole_of_truths (hs : texts.TakenAsTruths) {p : Int → Prop} (hzero : ¬ p 0)
    (hone : ¬ p 1) : ¬ texts.AnyWhole p := by
  intro hany
  obtain ⟨t, ht, n, hn, hp⟩ := hany
  obtain ⟨b, hb⟩ := Option.isSome_iff_exists.1 (hs t ht)
  cases writtenAs_of_truthText? hb with
  | inl h =>
    rw [h.integer] at hn
    cases hn
  | inr h =>
    have hbit := (h.integer n hn).1
    unfold bit? at hbit
    split at hbit
    · exact hzero hp
    · exact hone hp
    · cases hbit

private theorem truths_of_true (hc : texts.complete = true)
    (h : ∀ t ∈ texts.present, truthText? t = some true) :
    texts.truthCells? = some (texts.map fun _ => .boolean true) := by
  rw [Texts.truthCells?, convert_eq_some_iff, List.forall₂_map_right_iff, List.forall₂_same]
  intro c hm
  cases c with
  | none => exact absurd hm (not_mem_of_complete hc)
  | some t => simp [cellOf, h t (mem_present.2 hm)]

private theorem readNumbers_of_truths (hs : texts.TakenAsTruths)
    (hall : ∀ t ∈ texts.present, (number? t).isSome) : readNumbers texts ≠ none := by
  intro h
  obtain ⟨t, ht, hout⟩ := exists_of_clashes (clashes_of_readNumbers h)
  cases hout with
  | inl hn => simpa [hn] using hall t ht
  | inr hout =>
    obtain ⟨n, hn, hr⟩ := hout
    refine not_anyWhole_of_truths hs (p := fun n => n < -signedLimit ∨ unsignedLimit ≤ n) ?_ ?_
      ⟨t, ht, n, hn, hr⟩
    · decide
    · decide

private theorem truths_of_readStrictBoolean (hs : texts.TakenAsTruths) (hk : texts.OfOneKind)
    (h : readStrictBoolean texts = .ok stored) :
    texts.truthCells? = some stored.2 := by
  unfold readStrictBoolean at h
  split at h
  · cases h
  · next hc =>
    rw [Bool.not_eq_true', Bool.not_eq_false] at hc
    split at h
    · next ns hn =>
      obtain ⟨cells, hcells, hstored⟩ := storedAs_eq_ok_iff.1 h
      obtain ⟨hns, hall⟩ := readNumbers_cases hn
      rw [hns, convert_map_bind hall] at hcells
      rw [hstored]
      refine truths_of_convert (w := fun t => (integer? t).map (· != 0)) hs (fun t ht hw => ?_) ?_
      · exact (truthText?_of_integer ht (by simpa using hw)).2
      · simp only [Option.bind_map]
        exact hcells
    · next xs hn =>
      obtain ⟨cells, hcells, hstored⟩ := storedAs_eq_ok_iff.1 h
      obtain ⟨hxs, hall, _⟩ := readNumbers_cases hn
      rw [hxs, convert_map_bind hall] at hcells
      rw [hstored]
      refine truths_of_convert (w := fun t => (number? t).map (·.rank != 0)) hs (fun t ht hw => ?_) ?_
      · exact (truthText?_of_number ht (by simpa using hw)).2
      · simp only [Option.bind_map]
        exact hcells
    · next hn =>
      -- a clash needs a whole number beyond the signed range
      have hbig := anyWhole_of_clashes (clashes_of_clash hn)
      exact absurd hbig (not_anyWhole_of_truths hs (by decide) (by decide))
    · next hn =>
      split at h
      · obtain ⟨cells, hcells, hstored⟩ := storedAs_eq_ok_iff.1 h
        rw [hstored]
        exact truths_of_convert hs (fun _ => truthText?_of_exactWord) hcells
      · next hwords =>
        cases h
        obtain hall | hall | hall := hk
        · exact absurd hn (readNumbers_of_truths hs hall)
        · exact absurd (List.all_eq_true.2 hall) hwords
        · exact truths_of_true hc hall

end Truths

section Columns
variable {g : Grammar} {type : DataType} {stored stored' : Stored} {f f' : Field}
  {cells cells' : List Cell}

inductive Texts.TakenAs (texts : Texts) : DataType → Prop where
  | text : TakenAs texts .utf8
  | integers (h : texts.TakenAsIntegers) : TakenAs texts .int64
  | truths (h : texts.TakenAsTruths) : TakenAs texts .boolean

instance (texts : Texts) : (type : DataType) → Decidable (texts.TakenAs type)
  | .utf8 => isTrue .text
  | .int64 => decidable_of_iff texts.TakenAsIntegers ⟨.integers, fun | .integers h => h⟩
  | .boolean => decidable_of_iff texts.TakenAsTruths ⟨.truths, fun | .truths h => h⟩
  | .float64 => isFalse nofun

/-- Required columns whose cells are those of a nullable one. The others are unsigned, or truth values
of a strict text in which a word stands beside a number. -/
structure Grammar.Comparable (g : Grammar) (type : DataType) (texts : Texts) : Prop where
  integers : type = .int64 → g = .lenient → ¬ texts.AnyWhole (signedLimit ≤ ·)
  truths : type = .boolean → g = .strict → texts.OfOneKind

instance (g : Grammar) (type : DataType) (texts : Texts) : Decidable (g.Comparable type texts) :=
  decidable_of_iff ((type = .int64 → g = .lenient → ¬ texts.AnyWhole (signedLimit ≤ ·)) ∧
      (type = .boolean → g = .strict → texts.OfOneKind))
    ⟨fun h => ⟨h.1, h.2⟩, fun h => ⟨h.integers, h.truths⟩⟩

theorem Grammar.readColumn_nullable (g : Grammar) (type : DataType) :
    g.readColumn type true = Csv.readColumn type true := by
  cases g with
  | lenient => rfl
  | strict => cases type <;> rfl

theorem Grammar.exists_readColumn_iff (ht : type ≠ .float64) :
    (∃ stored, g.readColumn type true texts = .ok stored) ↔ texts.TakenAs type := by
  rw [readColumn_nullable]
  cases type with
  | float64 => exact absurd rfl ht
  | utf8 => exact iff_of_true ⟨_, rfl⟩ .text
  | int64 => exact exists_readNullableInt64_iff.trans ⟨.integers, fun | .integers h => h⟩
  | boolean => exact exists_readNullableBoolean_iff.trans ⟨.truths, fun | .truths h => h⟩

/-- A required column keeps its cells when it is read as a nullable one. -/
theorem Grammar.cells_of_readColumn (ht : type ≠ .float64)
    (h : g.readColumn type false texts = .ok stored)
    (h' : g.readColumn type true texts = .ok stored') (hc : g.Comparable type texts) :
    stored'.2 = stored.2 := by
  have htaken := (exists_readColumn_iff ht).1 ⟨stored', h'⟩
  cases htaken with
  | text =>
    have heq : g.readColumn .utf8 true texts = g.readColumn .utf8 false texts := by cases g <;> rfl
    rw [heq, h] at h'
    cases h'
    rfl
  | integers hi =>
    exact (integersRead h).cells_eq (integersRead h') hi.numbers (hc.integers rfl)
  | truths hs =>
    have htruths : texts.truthCells? = some stored.2 := by
      cases g with
      | lenient => exact truths_of_readBoolean hs h
      | strict => exact truths_of_readStrictBoolean hs (hc.truths rfl rfl) h
    rw [readColumn_nullable] at h'
    obtain ⟨cells, hcells, hstored⟩ := storedAs_eq_ok_iff.1 h'
    rw [hstored]
    exact Option.some.inj (hcells.symm.trans htruths)

theorem Grammar.exists_cells?_iff (ht : f.type ≠ .float64) (hn : f.nullable = true) :
    (∃ cells, g.cells? f texts = some cells) ↔ texts.TakenAs f.type := by
  rw [← exists_readColumn_iff (g := g) ht]
  simp only [cells?_eq_some_iff, hn]
  rw [exists_comm, ← Prod.exists']

theorem Grammar.cells?_unique (ht : f.type ≠ .float64) (hf : f.nullable = false)
    (hf' : f'.nullable = true) (htype : f'.type = f.type) (hc : g.Comparable f.type texts)
    (h : g.cells? f texts = some cells) (h' : g.cells? f' texts = some cells') : cells' = cells := by
  obtain ⟨storage, h⟩ := cells?_eq_some_iff.1 h
  obtain ⟨storage', h'⟩ := cells?_eq_some_iff.1 h'
  rw [hf] at h
  rw [hf', htype] at h'
  exact cells_of_readColumn ht h h' hc

end Columns
end QueryPlan.Csv
