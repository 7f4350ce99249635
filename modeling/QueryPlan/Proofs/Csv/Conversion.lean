import QueryPlan.Csv.Scan
import QueryPlan.Proofs.Traversal
/-!
# What conversion keeps

A column that converts has as many cells as it has texts, in a layout that stores its type. A
required column of integers or truth values converts only when no text is missing.
-/
namespace QueryPlan

def Storage.type : Storage → DataType
  | .string => .utf8
  | .int64 | .uint64 | .nullableInt64 => .int64
  | .bool | .nullableBoolean => .boolean
  | .float64 | .nullableFloat64 => .float64

theorem DataType.ofStorageName_name (storage : Storage) :
    DataType.ofStorageName storage.name = .ok storage.type := by
  cases storage <;> rfl

end QueryPlan

namespace QueryPlan.Csv
variable {α : Type}

def cellOf (f : α → Option Cell) : Option α → Option Cell
  | none => some .missing
  | some a => f a

theorem convert_eq_mapM (f : α → Option Cell) (cells : List (Option α)) :
    convert f cells = cells.mapM (cellOf f) := rfl

theorem convert_eq_some_iff {f : α → Option Cell} {cells : List (Option α)} {cs : List Cell} :
    convert f cells = some cs ↔ List.Forall₂ (fun c y => cellOf f c = some y) cells cs := by
  rw [convert_eq_mapM, mapM_eq_some_iff]

theorem exists_convert {f : α → Option Cell} {xs : List (Option α)}
    (h : ∀ a, some a ∈ xs → (f a).isSome) : ∃ cs, convert f xs = some cs := by
  have hcell : ∀ x ∈ xs, ∃ c, cellOf f x = some c := by
    intro x hx
    cases x with
    | none => exact ⟨.missing, rfl⟩
    | some a => exact Option.isSome_iff_exists.1 (h a hx)
  obtain ⟨cs, hcs⟩ := exists_forall₂ hcell
  exact ⟨cs, convert_eq_some_iff.2 hcs⟩

theorem exists_convert_iff {f : α → Option Cell} {xs : List (Option α)} :
    (∃ cells, convert f xs = some cells) ↔ ∀ a, some a ∈ xs → (f a).isSome := by
  constructor
  · intro h a ha
    obtain ⟨cells, h⟩ := h
    obtain ⟨c, _, hc⟩ := exists_of_mem_left (convert_eq_some_iff.1 h) ha
    rw [show f a = some c from hc]
    rfl
  · exact exists_convert

theorem storedAs_eq_ok_iff {storage : Storage} {x : Option (List Cell)} {stored : Stored} :
    storedAs storage x = .ok stored ↔ ∃ cs, x = some cs ∧ stored = (storage, cs) := by
  cases x with
  | none => simp [storedAs, malformed]
  | some cs => simp [storedAs, eq_comm]

theorem exists_storedAs_iff {storage : Storage} {x : Option (List Cell)} :
    (∃ stored, storedAs storage x = .ok stored) ↔ ∃ cells, x = some cells := by
  simp [storedAs_eq_ok_iff]

theorem refused_ne_ok {x : Except ReadError (List Int)} {stored : Stored} :
    refused x ≠ .ok stored := by
  intro h
  cases x <;> cases h

theorem mem_present {cells : Texts} {t : String} : t ∈ cells.present ↔ some t ∈ cells := by
  simp [Texts.present]

theorem eq_map_some_of_complete {cells : Texts} (h : cells.complete = true) :
    cells = cells.present.map some := by
  induction cells with
  | nil => rfl
  | cons c cells ih =>
    rw [Texts.complete, List.all_cons, Bool.and_eq_true] at h
    cases c with
    | none => cases h.1
    | some t =>
      rw [show Texts.present (some t :: cells) = t :: Texts.present cells from rfl, List.map_cons,
        ← ih h.2]

theorem length_of_complete {cells : Texts} (h : cells.complete = true) :
    cells.length = cells.present.length := by
  conv_lhs => rw [eq_map_some_of_complete h]
  exact List.length_map _

theorem rangedValues_eq_ok_iff {least limit : Int} {texts : List String} {ns : List Int} :
    rangedValues least limit texts = .ok ns ↔
      List.Forall₂ (fun t n => readRanged least limit t = .value n) texts ns := by
  induction texts generalizing ns with
  | nil =>
    rw [List.forall₂_nil_left_iff, rangedValues, Except.ok.injEq, eq_comm]
  | cons t texts ih =>
    rw [rangedValues, List.forall₂_cons_left_iff]
    cases ht : readRanged least limit t with
    | value n =>
      rw [map_eq_ok_iff]
      constructor
      · rintro ⟨ms, hms, rfl⟩
        exact ⟨n, ms, rfl, ih.1 hms, rfl⟩
      · rintro ⟨m, ms, hm, hms, rfl⟩
        cases hm
        exact ⟨ms, ih.2 hms, rfl⟩
    | beyond => simp
    | other => simp

theorem exists_of_rangedValues_error {least limit : Int} {texts : List String} {r : Ranged}
    (h : rangedValues least limit texts = .error r) :
    ∃ t ∈ texts, readRanged least limit t = r ∧ ∀ n, r ≠ .value n := by
  induction texts with
  | nil => cases h
  | cons t texts ih =>
    rw [rangedValues] at h
    cases ht : readRanged least limit t with
    | value n =>
      rw [ht] at h
      obtain ⟨u, hu, hr⟩ := ih (map_eq_error_iff.1 h)
      exact ⟨u, List.mem_cons_of_mem _ hu, hr⟩
    | beyond =>
      rw [ht] at h
      cases h
      exact ⟨t, List.mem_cons_self, ht, by simp⟩
    | other =>
      rw [ht] at h
      cases h
      exact ⟨t, List.mem_cons_self, ht, by simp⟩

/-- A text beyond the signed range that is no negative number of the unsigned one is large. -/
theorem signedLimit_le_of_beyond {t : String} {n : Int}
    (hb : readRanged (-signedLimit) signedLimit t = .beyond)
    (hv : readRanged 0 unsignedLimit t = .value n) : signedLimit ≤ n := by
  simp only [readRanged] at hb hv
  split at hv
  · cases hv
  · split at hv
    · cases hv
    · split at hv
      · rename_i hd hr hs
        simp only [hd, hs, if_true, if_false, Bool.false_eq_true] at hb
        cases hv
        split at hb
        · rename_i hout
          simp only [signedLimit, unsignedLimit] at *
          omega
        · cases hb
      · cases hv

theorem readWhole_signed {cells : Texts} {ns : List Int} (h : readWhole cells = .signed ns) :
    rangedValues (-signedLimit) signedLimit cells.present = .ok ns := by
  unfold readWhole at h
  split at h
  · next hv =>
    cases h
    exact hv
  · unfold unsignedWhole at h
    split at h
    · cases h
    · cases h
    · dsimp only at h
      split at h
      · cases h
      · split at h <;> cases h
  · cases h

theorem readWhole_unsigned {cells : Texts} {ns : List Int} (h : readWhole cells = .unsigned ns) :
    cells.complete = true ∧ rangedValues 0 unsignedLimit cells.present = .ok ns ∧
      ∃ n ∈ ns, signedLimit ≤ n := by
  unfold readWhole at h
  split at h
  · cases h
  · next hb =>
    obtain ⟨t, ht, hbt, -⟩ := exists_of_rangedValues_error hb
    unfold unsignedWhole at h
    split at h
    · cases h
    · cases h
    · next ms hv =>
      dsimp only at h
      split at h
      · cases h
      · next hconflict =>
        split at h
        · cases h
        · next hneg =>
          cases h
          have hall : ∀ u ∈ cells.present, startsNegative u = false := by
            simpa using hneg
          have hf : cells.present.filter (!startsNegative ·) = cells.present :=
            List.filter_eq_self.2 fun u hu => by simp [hall u hu]
          rw [hf] at hv
          obtain ⟨n, hn, hvn⟩ := exists_of_mem_left (rangedValues_eq_ok_iff.1 hv) ht
          have hbig := signedLimit_le_of_beyond hbt hvn
          have hany : ns.any (signedLimit ≤ ·) = true :=
            List.any_eq_true.2 ⟨n, hn, by simpa using hbig⟩
          have hc : cells.complete = true := by
            cases hcomplete : cells.complete with
            | true => rfl
            | false => simp [hany, hcomplete] at hconflict
          exact ⟨hc, hv, n, hn, hbig⟩
  · cases h

theorem length_of_rangedValues {least limit : Int} {cells : Texts} {ns : List Int}
    (hc : cells.complete = true) (h : rangedValues least limit cells.present = .ok ns) :
    ns.length = cells.length := by
  rw [length_of_complete hc, (rangedValues_eq_ok_iff.1 h).length_eq]

/-- A layout that stores the type, with one cell for each text. Where a text is missing, so is a
cell. -/
structure Stored.Fits (type : DataType) (cells : Texts) (stored : Stored) : Prop where
  layout : stored.1.type = type
  length : stored.2.length = cells.length
  missing : none ∈ cells → .missing ∈ stored.2

theorem not_mem_of_complete {cells : Texts} (h : cells.complete = true) : none ∉ cells := by
  intro hm
  exact absurd (List.all_eq_true.1 h none hm) Bool.false_ne_true

private theorem fits_of_complete {type : DataType} {cells : Texts} {stored : Stored}
    (hc : cells.complete = true) (ht : stored.1.type = type)
    (hl : stored.2.length = cells.length) : stored.Fits type cells :=
  ⟨ht, hl, fun hm => absurd hm (not_mem_of_complete hc)⟩

theorem missing_of_convert {f : α → Option Cell} {xs : List (Option α)} {cs : List Cell}
    (h : convert f xs = some cs) (hm : none ∈ xs) : .missing ∈ cs := by
  obtain ⟨y, hy, hcell⟩ := exists_of_mem_left (convert_eq_some_iff.1 h) hm
  rw [cellOf] at hcell
  cases hcell
  exact hy

structure Aligned (cells : Texts) (xs : List (Option α)) : Prop where
  length : xs.length = cells.length
  missing : none ∈ cells → none ∈ xs

theorem aligned_self (cells : Texts) : Aligned cells cells :=
  ⟨rfl, id⟩

theorem aligned_bind (cells : Texts) (f : String → Option α) :
    Aligned cells (cells.map (·.bind f)) :=
  ⟨List.length_map _, fun h => List.mem_map.2 ⟨none, h, rfl⟩⟩

private theorem fits_convert {type : DataType} {storage : Storage} {cells : Texts}
    {f : α → Option Cell} {xs : List (Option α)} {cs : List Cell} (ht : storage.type = type)
    (hx : Aligned cells xs) (h : convert f xs = some cs) : Stored.Fits type cells (storage, cs) :=
  ⟨ht, by rw [← hx.length, (convert_eq_some_iff.1 h).length_eq],
    fun hm => missing_of_convert h (hx.missing hm)⟩

private theorem fits_storedAs {type : DataType} {storage : Storage} {cells : Texts}
    {f : α → Option Cell} {xs : List (Option α)} {stored : Stored}
    (ht : storage.type = type) (hx : Aligned cells xs)
    (h : storedAs storage (convert f xs) = .ok stored) : stored.Fits type cells := by
  obtain ⟨cs, hcs, rfl⟩ := storedAs_eq_ok_iff.1 h
  exact fits_convert ht hx hcs

private theorem readInt64_fits {cells : Texts} {stored : Stored} (h : readInt64 cells = .ok stored) :
    stored.Fits .int64 cells ∧ cells.complete = true := by
  unfold readInt64 at h
  split at h
  · next ns hw =>
    split at h
    · next hc =>
      cases h
      have hl := length_of_rangedValues hc (readWhole_signed hw)
      exact ⟨fits_of_complete hc rfl (by rw [List.length_map, hl]), hc⟩
    · cases h
  · next ns hw =>
    obtain ⟨hc, hv, -⟩ := readWhole_unsigned hw
    cases h
    exact ⟨fits_of_complete hc rfl (by rw [List.length_map, length_of_rangedValues hc hv]), hc⟩
  · cases h
  · cases h
  · split at h
    · split at h
      · next hc => exact ⟨fits_storedAs rfl (aligned_self _) h, hc⟩
      · cases h
    · split at h
      · split at h
        · next hc => exact ⟨fits_storedAs rfl (aligned_self _) h, hc⟩
        · cases h
      · exact absurd h refused_ne_ok

private theorem readFloat64_fits {cells : Texts} {stored : Stored}
    (h : readFloat64 cells = .ok stored) : stored.Fits .float64 cells := by
  unfold readFloat64 at h
  split at h
  · next converted hx =>
    cases h
    exact fits_convert rfl (aligned_self _) hx
  · split at h
    · next converted hx =>
      cases h
      exact fits_convert rfl (aligned_self _) hx
    · split at h
      · next ns hw =>
        split at h
        · next hc =>
          cases h
          have hl := length_of_rangedValues hc (readWhole_signed hw)
          exact fits_of_complete hc rfl (by rw [List.length_map, hl])
        · cases h
      · next ns hw =>
        obtain ⟨hc, hv, -⟩ := readWhole_unsigned hw
        rw [if_pos hc] at h
        cases h
        exact fits_of_complete hc rfl (by rw [List.length_map, length_of_rangedValues hc hv])
      · cases h

private theorem readBoolean_fits {cells : Texts} {stored : Stored}
    (h : readBoolean cells = .ok stored) :
    stored.Fits .boolean cells ∧ cells.complete = true := by
  unfold readBoolean at h
  split at h
  · cases h
  · next hc =>
    have hc : cells.complete = true := by simpa using hc
    refine ⟨?_, hc⟩
    split at h
    · next converted hx =>
      cases h
      exact fits_convert rfl (aligned_self _) hx
    · split at h
      · next ns hw =>
        have hl := length_of_rangedValues hc (readWhole_signed hw)
        have hx : Aligned cells (ns.map some) :=
          ⟨by rw [List.length_map, hl], fun hm => absurd hm (not_mem_of_complete hc)⟩
        exact fits_storedAs rfl hx h
      · exact fits_storedAs rfl (aligned_self _) h
      · cases h

theorem readNumbers_whole {cells : Texts} {ns : List (Option Int)}
    (h : readNumbers cells = some (.whole ns)) : ns = cells.map (·.bind integer?) := by
  unfold readNumbers at h
  obtain ⟨clash, -, h⟩ := Option.bind_eq_some_iff.1 h
  split at h
  · cases h
  · split at h
    · cases h
      rfl
    · cases h

theorem readNumbers_real {cells : Texts} {xs : List (Option Binary64)}
    (h : readNumbers cells = some (.real xs)) : xs = cells.map (·.bind number?) := by
  unfold readNumbers at h
  obtain ⟨clash, -, h⟩ := Option.bind_eq_some_iff.1 h
  split at h
  · cases h
  · split at h
    · cases h
    · cases h
      rfl

private theorem aligned_whole {cells : Texts} {ns : List (Option Int)}
    (h : readNumbers cells = some (.whole ns)) : Aligned cells ns :=
  readNumbers_whole h ▸ aligned_bind _ _

private theorem aligned_real {cells : Texts} {xs : List (Option Binary64)}
    (h : readNumbers cells = some (.real xs)) : Aligned cells xs :=
  readNumbers_real h ▸ aligned_bind _ _

theorem refuseReals_ne_ok {xs : List Binary64} {stored : Stored} : refuseReals xs ≠ .ok stored := by
  unfold refuseReals
  intro h
  split at h
  · cases h
  · cases h
  · split at h <;> cases h

private theorem readNullableInt64_fits {cells : Texts} {stored : Stored}
    (h : readNullableInt64 cells = .ok stored) : stored.Fits .int64 cells := by
  unfold readNullableInt64 at h
  split at h
  · cases h
  · exact absurd h refused_ne_ok
  · next hn => exact fits_storedAs rfl (aligned_whole hn) h
  · next hn =>
    split at h
    · next converted hx =>
      cases h
      exact fits_convert rfl (aligned_real hn) hx
    · exact absurd h refuseReals_ne_ok

private theorem readNullableFloat64_fits {cells : Texts} {stored : Stored}
    (h : readNullableFloat64 cells = .ok stored) : stored.Fits .float64 cells := by
  unfold readNullableFloat64 at h
  split at h
  · cases h
  · exact fits_storedAs rfl (aligned_self _) h
  · next hn => exact fits_storedAs rfl (aligned_whole hn) h
  · next hn => exact fits_storedAs rfl (aligned_real hn) h

private theorem readText_fits {cells : Texts} {stored : Stored} (h : readText cells = .ok stored) :
    stored.Fits .utf8 cells := by
  cases h
  exact ⟨rfl, List.length_map _, fun hm => List.mem_map.2 ⟨none, hm, rfl⟩⟩

theorem forall₂_of_looseIntegers {cells : Texts} {ns : List Int}
    (h : looseIntegers cells = .ok ns) :
    List.Forall₂ (fun c n => c.bind Loose.int? = some n ∧ inSigned n = true) cells ns := by
  induction cells generalizing ns with
  | nil =>
    cases h
    exact .nil
  | cons c cells ih =>
    rw [looseIntegers] at h
    split at h
    · cases h
    · next n hn =>
      split at h
      · next hr =>
        obtain ⟨ms, hms, rfl⟩ := map_eq_ok_iff.1 h
        exact .cons ⟨hn, hr⟩ (ih hms)
      · cases h

private theorem looseIntegers_ok {cells : Texts} {ns : List Int}
    (h : looseIntegers cells = .ok ns) : ns.length = cells.length ∧ cells.complete = true := by
  have hf := forall₂_of_looseIntegers h
  refine ⟨hf.length_eq.symm, List.all_eq_true.2 fun c hc => ?_⟩
  obtain ⟨n, -, hn, -⟩ := exists_of_mem_left hf hc
  obtain ⟨t, rfl, -⟩ := Option.bind_eq_some_iff.1 hn
  rfl

private theorem readStrictInt64_fits {cells : Texts} {stored : Stored}
    (h : readStrictInt64 cells = .ok stored) :
    stored.Fits .int64 cells ∧ cells.complete = true := by
  unfold readStrictInt64 at h
  split at h
  · next hn =>
    split at h
    · next hc => exact ⟨fits_storedAs rfl (aligned_whole hn) h, hc⟩
    · cases h
  · next hn =>
    split at h
    · next hc => exact ⟨fits_storedAs rfl (aligned_real hn) h, hc⟩
    · cases h
  · exact absurd h refused_ne_ok
  · split at h
    · split at h
      · next hc => exact ⟨fits_storedAs rfl (aligned_self _) h, hc⟩
      · cases h
    · obtain ⟨ns, hns, rfl⟩ := map_eq_ok_iff.1 h
      obtain ⟨hl, hc⟩ := looseIntegers_ok hns
      exact ⟨fits_of_complete hc rfl (by rw [List.length_map, hl]), hc⟩

private theorem readStrictFloat64_fits {cells : Texts} {stored : Stored}
    (h : readStrictFloat64 cells = .ok stored) : stored.Fits .float64 cells := by
  unfold readStrictFloat64 at h
  split at h
  · next hn =>
    split at h
    · exact fits_storedAs rfl (aligned_whole hn) h
    · exact fits_storedAs rfl (aligned_self _) h
  · next hn => exact fits_storedAs rfl (aligned_real hn) h
  · split at h
    · exact fits_storedAs rfl (aligned_self _) h
    · cases h
  · split at h
    · exact fits_storedAs rfl (aligned_self _) h
    · exact fits_storedAs rfl (aligned_self _) h

private theorem readStrictBoolean_fits {cells : Texts} {stored : Stored}
    (h : readStrictBoolean cells = .ok stored) :
    stored.Fits .boolean cells ∧ cells.complete = true := by
  unfold readStrictBoolean at h
  split at h
  · cases h
  · next hc =>
    have hc : cells.complete = true := by simpa using hc
    refine ⟨?_, hc⟩
    split at h
    · next hn => exact fits_storedAs rfl (aligned_whole hn) h
    · next hn => exact fits_storedAs rfl (aligned_real hn) h
    · cases h
      exact fits_of_complete hc rfl (List.length_map _)
    · split at h
      · exact fits_storedAs rfl (aligned_self _) h
      · cases h
        exact fits_of_complete hc rfl (List.length_map _)

private theorem readColumn_fits {type : DataType} {nullable : Bool} {cells : Texts} {stored : Stored}
    (h : readColumn type nullable cells = .ok stored) : stored.Fits type cells := by
  cases type <;> cases nullable
  case utf8.false => exact readText_fits h
  case utf8.true => exact readText_fits h
  case int64.false => exact (readInt64_fits h).1
  case int64.true => exact readNullableInt64_fits h
  case boolean.false => exact (readBoolean_fits h).1
  case boolean.true => exact fits_storedAs rfl (aligned_self _) h
  case float64.false => exact readFloat64_fits h
  case float64.true => exact readNullableFloat64_fits h

theorem Grammar.readColumn_fits {g : Grammar} {type : DataType} {nullable : Bool} {cells : Texts}
    {stored : Stored} (h : g.readColumn type nullable cells = .ok stored) :
    stored.Fits type cells := by
  cases g with
  | lenient => exact Csv.readColumn_fits h
  | strict =>
    cases type <;> cases nullable
    case int64.false => exact (readStrictInt64_fits h).1
    case boolean.false => exact (readStrictBoolean_fits h).1
    case float64.false => exact readStrictFloat64_fits h
    case utf8.false => exact readText_fits h
    case utf8.true => exact readText_fits h
    case int64.true => exact readNullableInt64_fits h
    case boolean.true => exact fits_storedAs rfl (aligned_self _) h
    case float64.true => exact readNullableFloat64_fits h

theorem Grammar.complete_of_readColumn {g : Grammar} {type : DataType} {cells : Texts}
    {stored : Stored} (ht : type = .int64 ∨ type = .boolean)
    (h : g.readColumn type false cells = .ok stored) : cells.complete = true := by
  rcases ht with rfl | rfl
  · cases g with
    | lenient => exact (readInt64_fits h).2
    | strict => exact (readStrictInt64_fits h).2
  · cases g with
    | lenient => exact (readBoolean_fits h).2
    | strict => exact (readStrictBoolean_fits h).2

end QueryPlan.Csv
