import Mathlib.Algebra.Group.Nat.Defs
import Mathlib.Tactic.SplitIfs
import QueryPlan.Text.Quoted
/-!
# Quoted texts are told apart

A written character tells which character it stands for and where it ends, because the backslash
announces one of a few forms of a fixed width. A quoted text ends at the first quote that belongs to no
character, and a list of quoted texts at its bracket. So each of them is told from all others, whatever
text follows.
-/
namespace QueryPlan.Text

/-- Each form tells what it stands for and where it ends, whatever follows it. -/
def SelfDelimiting {α : Type} (form : α → List Char) : Prop :=
  ∀ ⦃a b : α⦄ ⦃r s : List Char⦄, form a ++ r = form b ++ s → a = b ∧ r = s

namespace SelfDelimiting
variable {α β : Type} {form : α → List Char}

theorem injective (h : SelfDelimiting form) : Function.Injective form := by
  intro a b hab
  have happ : form a ++ [] = form b ++ [] := by rw [hab]
  exact (h happ).1

theorem comp (h : SelfDelimiting form) {f : β → α} (hf : Function.Injective f) :
    SelfDelimiting fun b => form (f b) := by
  intro a b r s hab
  obtain ⟨heq, hrest⟩ := h hab
  exact ⟨hf heq, hrest⟩

theorem prepend (h : SelfDelimiting form) (lead : List Char) :
    SelfDelimiting fun a => lead ++ form a := by
  intro a b r s hab
  rw [List.append_assoc, List.append_assoc, List.append_right_inj] at hab
  exact h hab

/-- Forms one behind the other are told apart up to a character that none of them starts with. -/
theorem upTo (h : SelfDelimiting form) (stop : Char)
    (hstop : ∀ a r s, form a ++ r ≠ stop :: s) :
    SelfDelimiting fun as : List α => as.flatMap form ++ [stop] := by
  intro as bs r s hab
  simp only [List.append_assoc, List.singleton_append] at hab
  induction as generalizing bs with
  | nil =>
    cases bs with
    | nil => exact ⟨rfl, (List.cons.inj hab).2⟩
    | cons b bs =>
      -- one text has ended where the other goes on
      rw [List.flatMap_cons, List.append_assoc] at hab
      exact absurd hab.symm (hstop b _ r)
  | cons a as ih =>
    rw [List.flatMap_cons, List.append_assoc] at hab
    cases bs with
    | nil => exact absurd hab (hstop a _ s)
    | cons b bs =>
      rw [List.flatMap_cons, List.append_assoc] at hab
      obtain ⟨rfl, hrest⟩ := h hab
      obtain ⟨rfl, hrs⟩ := ih hrest
      exact ⟨rfl, hrs⟩

end SelfDelimiting

def hexValue (c : Char) : Nat :=
  if c.isDigit then c.toNat - '0'.toNat else c.toNat - 'a'.toNat + 10

def ofHexDigits (cs : List Char) : Nat :=
  cs.foldl (fun n c => 16 * n + hexValue c) 0

theorem ofHexDigits_append (cs : List Char) (c : Char) :
    ofHexDigits (cs ++ [c]) = 16 * ofHexDigits cs + hexValue c := by
  simp [ofHexDigits]

theorem hexValue_digitChar {d : Nat} (h : d < 16) : hexValue (Nat.digitChar d) = d := by
  revert d
  decide

theorem ofHexDigits_hexDigits (width n : Nat) : ofHexDigits (hexDigits width n) = n % 16 ^ width := by
  induction width generalizing n with
  | zero => simp [hexDigits, ofHexDigits, Nat.mod_one]
  | succ width ih =>
    have hd : n % 16 < 16 := Nat.mod_lt n (by decide)
    rw [hexDigits, ofHexDigits_append, ih, hexValue_digitChar hd, Nat.pow_succ', Nat.mod_mul,
      Nat.add_comm]

/-- The character that stands at the front in hexadecimal digits, and what follows them. -/
def readCode (width : Nat) (cs : List Char) : Char × List Char :=
  (Char.ofNat (ofHexDigits (cs.take width)), cs.drop width)

def readEscaped? : List Char → Option (Char × List Char)
  | [] => none
  | 't' :: cs => some ('\t', cs)
  | 'n' :: cs => some ('\n', cs)
  | 'r' :: cs => some ('\r', cs)
  | 'x' :: cs => some (readCode 2 cs)
  | 'u' :: cs => some (readCode 4 cs)
  | 'U' :: cs => some (readCode 8 cs)
  | c :: cs => some (c, cs)

def unescape? : List Char → Option (Char × List Char)
  | [] => none
  | '\\' :: cs => readEscaped? cs
  | c :: cs => some (c, cs)

theorem unescape?_of_ne {c : Char} (h : c ≠ '\\') (cs : List Char) :
    unescape? (c :: cs) = some (c, cs) := by
  rw [unescape?]
  exact h

theorem readCode_hexDigits {width : Nat} {c : Char} (h : c.toNat < 16 ^ width) (rest : List Char) :
    readCode width (hexDigits width c.toNat ++ rest) = (c, rest) := by
  have hlength := length_hexDigits width c.toNat
  rw [readCode, List.take_left' hlength, List.drop_left' hlength, ofHexDigits_hexDigits,
    Nat.mod_eq_of_lt h, Char.ofNat_toNat]

def IsQuote (mark : Char) : Prop :=
  mark = '\'' ∨ mark = '"'

instance (mark : Char) : Decidable (IsQuote mark) :=
  inferInstanceAs (Decidable (mark = '\'' ∨ mark = '"'))

theorem isQuote_quoteMark (cs : List Char) : IsQuote (quoteMark cs) := by
  unfold quoteMark
  split
  · exact .inr rfl
  · exact .inl rfl

section Mark
variable {mark : Char}

theorem unescape?_escape (hm : IsQuote mark) (c : Char) (rest : List Char) :
    unescape? (escape mark c ++ rest) = some (c, rest) := by
  unfold escape
  split_ifs with hself ht hn hr hp hbyte hword
  · rcases hself with rfl | rfl
    · rcases hm with rfl | rfl
      · rfl
      · rfl
    · rfl
  · rw [ht]
    rfl
  · rw [hn]
    rfl
  · rw [hr]
    rfl
  · exact unescape?_of_ne (not_or.1 hself).2 rest
  · exact congrArg some (readCode_hexDigits hbyte rest)
  · exact congrArg some (readCode_hexDigits hword rest)
  · have hc : c.toNat < 16 ^ 8 := c.val.toNat_lt
    exact congrArg some (readCode_hexDigits hc rest)

theorem selfDelimiting_escape (hm : IsQuote mark) : SelfDelimiting (escape mark) := by
  intro a b r s hab
  have hread := unescape?_escape hm a r
  rw [hab, unescape?_escape hm b s] at hread
  cases hread
  exact ⟨rfl, rfl⟩

/-- No written character starts with the quote that ends the text. It would be read back as that quote,
which is written behind a backslash. -/
theorem escape_append_ne (hm : IsQuote mark) (c : Char) (r s : List Char) :
    escape mark c ++ r ≠ mark :: s := by
  have hslash : mark ≠ '\\' := by
    rcases hm with rfl | rfl
    · decide
    · decide
  intro h
  have hread := unescape?_escape hm c r
  rw [h, unescape?_of_ne hslash] at hread
  cases hread
  simp [escape] at h

end Mark

/-- The quote in front tells which quote ends the text, and up to there characters are told apart. -/
theorem selfDelimiting_quotedChars : SelfDelimiting quotedChars := by
  intro cs ds r s hab
  obtain ⟨hmark, hbody⟩ := List.cons.inj hab
  have hm := isQuote_quoteMark cs
  rw [← hmark] at hbody
  exact (selfDelimiting_escape hm).upTo _ (escape_append_ne hm) hbody

theorem selfDelimiting_quoted : SelfDelimiting fun s : String => (quoted s).toList := by
  simp only [toList_quoted]
  exact selfDelimiting_quotedChars.comp fun _ _ => String.toList_inj.1

theorem toList_quotedList_cons (item : String) (items : List String) :
    (quotedList (item :: items)).toList = '[' :: ((quoted item).toList ++
      ((items.flatMap fun t => [',', ' '] ++ (quoted t).toList) ++ [']'])) := by
  simp [quotedList, toList_commaSeparated_cons, List.flatMap_map]

theorem quotedList_nil_append_ne (item : String) (items : List String) (r s : List Char) :
    (quotedList []).toList ++ r ≠ (quotedList (item :: items)).toList ++ s := by
  intro h
  rw [toList_quotedList_cons, toList_quoted] at h
  have hhead : ']' = quoteMark item.toList := (List.cons.inj (List.cons.inj h).2).1
  have hm := isQuote_quoteMark item.toList
  rw [← hhead] at hm
  exact absurd hm (by decide)

/-- The items of a list tell where they end, and what follows the last one starts with no comma. -/
theorem selfDelimiting_quotedList : SelfDelimiting fun items => (quotedList items).toList := by
  have hitems := (selfDelimiting_quoted.prepend [',', ' ']).upTo ']' (by simp)
  intro xs ys r s hab
  cases xs with
  | nil =>
    cases ys with
    | nil => exact ⟨rfl, List.append_cancel_left hab⟩
    | cons y ys => exact absurd hab (quotedList_nil_append_ne y ys r s)
  | cons x xs =>
    cases ys with
    | nil => exact absurd hab.symm (quotedList_nil_append_ne x xs s r)
    | cons y ys =>
      dsimp only at hab
      rw [toList_quotedList_cons, toList_quotedList_cons, List.cons_append, List.cons_append,
        List.append_assoc (quoted x).toList, List.append_assoc (quoted y).toList] at hab
      obtain ⟨rfl, hrest⟩ := selfDelimiting_quoted (List.cons.inj hab).2
      obtain ⟨rfl, hrs⟩ := hitems hrest
      exact ⟨rfl, hrs⟩

theorem quotedList_inj {xs ys : List String} : quotedList xs = quotedList ys ↔ xs = ys := by
  rw [← String.toList_inj]
  exact selfDelimiting_quotedList.injective.eq_iff

/-- One name that looks like two, between the quotes that it does not hold. -/
example : quotedList ["a', 'b"] = "[\"a', 'b\"]" ∧ quotedList ["a", "b"] = "['a', 'b']" := by decide

end QueryPlan.Text
