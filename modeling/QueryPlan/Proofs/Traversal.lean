import Mathlib.Data.List.Forall2
/-!
# Traversals that can fail

A list is traversed by a step that can fail, and the first failure is the outcome. The traversal
succeeds when every step does, and fails at the first step that does not.
-/
namespace QueryPlan
variable {ε α β γ : Type}

instance decidableEqOutcome [DecidableEq ε] [DecidableEq α] : DecidableEq (Except ε α)
  | .error e, .error e' => decidable_of_iff (e = e') ⟨congrArg _, Except.error.inj⟩
  | .ok a, .ok a' => decidable_of_iff (a = a') ⟨congrArg _, Except.ok.inj⟩
  | .error _, .ok _ => isFalse (by simp)
  | .ok _, .error _ => isFalse (by simp)

theorem bind_eq_ok_iff {x : Except ε α} {f : α → Except ε β} {b : β} :
    (x >>= f) = .ok b ↔ ∃ a, x = .ok a ∧ f a = .ok b := by
  cases x with
  | error e => simp [bind, Except.bind]
  | ok a => simp [bind, Except.bind]

theorem bind_eq_error_iff {x : Except ε α} {f : α → Except ε β} {e : ε} :
    (x >>= f) = .error e ↔ x = .error e ∨ ∃ a, x = .ok a ∧ f a = .error e := by
  cases x with
  | error e' => simp [bind, Except.bind]
  | ok a => simp [bind, Except.bind]

theorem toOption_eq_some_iff {x : Except ε α} {a : α} : x.toOption = some a ↔ x = .ok a := by
  cases x with
  | error e => simp [Except.toOption]
  | ok b => simp [Except.toOption]

theorem mapM_cons_eq (f : α → Except ε β) (x : α) (xs : List α) :
    (x :: xs).mapM f = f x >>= fun y => (xs.mapM f).map (y :: ·) := by
  rw [List.mapM_cons]
  cases f x with
  | error e => rfl
  | ok y =>
    cases xs.mapM f with
    | error e => rfl
    | ok ys => rfl

theorem map_eq_ok_iff {x : Except ε α} {f : α → β} {b : β} :
    x.map f = .ok b ↔ ∃ a, x = .ok a ∧ f a = b := by
  cases x with
  | error e => simp [Except.map]
  | ok a => simp [Except.map]

theorem map_eq_error_iff {x : Except ε α} {f : α → β} {e : ε} :
    x.map f = .error e ↔ x = .error e := by
  cases x with
  | error e' => simp [Except.map]
  | ok a => simp [Except.map]

theorem mapM_eq_ok_iff {f : α → Except ε β} {xs : List α} {ys : List β} :
    xs.mapM f = .ok ys ↔ List.Forall₂ (fun x y => f x = .ok y) xs ys := by
  induction xs generalizing ys with
  | nil =>
    constructor
    · intro h
      cases h
      exact .nil
    · intro h
      cases h
      rfl
  | cons x xs ih =>
    rw [mapM_cons_eq, bind_eq_ok_iff]
    constructor
    · rintro ⟨y, hy, h⟩
      obtain ⟨zs, hzs, rfl⟩ := map_eq_ok_iff.1 h
      exact .cons hy (ih.1 hzs)
    · intro h
      cases h with
      | cons hy hys => exact ⟨_, hy, map_eq_ok_iff.2 ⟨_, ih.2 hys, rfl⟩⟩

theorem mapM_eq_some_iff {f : α → Option β} {xs : List α} {ys : List β} :
    xs.mapM f = some ys ↔ List.Forall₂ (fun x y => f x = some y) xs ys := by
  induction xs generalizing ys with
  | nil =>
    rw [List.forall₂_nil_left_iff, List.mapM_nil, Option.pure_def, Option.some.injEq, eq_comm]
  | cons x xs ih =>
    rw [List.mapM_cons, List.forall₂_cons_left_iff, Option.bind_eq_bind, Option.bind_eq_some_iff]
    constructor
    · rintro ⟨y, hy, h⟩
      obtain ⟨zs, hzs, h⟩ := Option.bind_eq_some_iff.1 h
      cases h
      exact ⟨y, zs, hy, ih.1 hzs, rfl⟩
    · rintro ⟨y, zs, hy, hzs, rfl⟩
      exact ⟨y, hy, Option.bind_eq_some_iff.2 ⟨zs, ih.2 hzs, rfl⟩⟩

theorem mapM_id_eq_some_iff {rs : List (Option α)} {xs : List α} :
    rs.mapM id = some xs ↔ rs = xs.map some := by
  rw [mapM_eq_some_iff, ← List.forall₂_eq_eq_eq, List.forall₂_map_right_iff]
  rfl

theorem mapM_id_eq_ok_iff {rs : List (Except ε α)} {xs : List α} :
    rs.mapM id = .ok xs ↔ rs = xs.map .ok := by
  rw [mapM_eq_ok_iff, ← List.forall₂_eq_eq_eq, List.forall₂_map_right_iff]
  rfl

theorem map_some_injective : Function.Injective (List.map (some : α → Option α)) :=
  List.map_injective_iff.2 fun _ _ h => Option.some.inj h

theorem map_ok_injective : Function.Injective (List.map (Except.ok : α → Except ε α)) :=
  List.map_injective_iff.2 fun _ _ h => Except.ok.inj h

theorem mapM_toOption_eq_some_iff {rs : List (Except ε α)} {xs : List α} :
    rs.mapM Except.toOption = some xs ↔ rs = xs.map .ok := by
  rw [mapM_eq_some_iff, ← List.forall₂_eq_eq_eq, List.forall₂_map_right_iff]
  simp only [toOption_eq_some_iff]

theorem mapM_eq_error_iff {f : α → Except ε β} {xs : List α} {e : ε} :
    xs.mapM f = .error e ↔ ∃ before x after, xs = before ++ x :: after ∧
      (∀ y ∈ before, ∃ z, f y = .ok z) ∧ f x = .error e := by
  induction xs with
  | nil =>
    constructor
    · intro h
      cases h
    · rintro ⟨before, x, after, h, -⟩
      exact absurd h.symm (List.append_ne_nil_of_right_ne_nil _ (List.cons_ne_nil _ _))
  | cons x xs ih =>
    rw [mapM_cons_eq, bind_eq_error_iff]
    constructor
    · rintro (hx | ⟨y, hy, h⟩)
      · exact ⟨[], x, xs, rfl, by simp, hx⟩
      · obtain ⟨before, z, after, rfl, hb, hz⟩ := ih.1 (map_eq_error_iff.1 h)
        refine ⟨x :: before, z, after, rfl, ?_, hz⟩
        intro w hw
        rcases List.mem_cons.1 hw with rfl | hw
        · exact ⟨y, hy⟩
        · exact hb w hw
    · rintro ⟨before, z, after, h, hb, hz⟩
      cases before with
      | nil =>
        cases h
        exact .inl hz
      | cons w before =>
        cases h
        obtain ⟨y, hy⟩ := hb x List.mem_cons_self
        refine .inr ⟨y, hy, map_eq_error_iff.2 (ih.2 ⟨before, z, after, rfl, ?_, hz⟩)⟩
        intro w hw
        exact hb w (List.mem_cons_of_mem _ hw)

theorem mapM_append_eq_error_iff {f : α → Except ε β} {xs ys : List α} {e : ε} :
    (xs ++ ys).mapM f = .error e ↔
      xs.mapM f = .error e ∨ (∃ zs, xs.mapM f = .ok zs) ∧ ys.mapM f = .error e := by
  rw [List.mapM_append, bind_eq_error_iff]
  refine or_congr_right ⟨?_, ?_⟩
  · rintro ⟨zs, hzs, h⟩
    rcases bind_eq_error_iff.1 h with h | ⟨ws, -, h⟩
    · exact ⟨⟨zs, hzs⟩, h⟩
    · cases h
  · rintro ⟨⟨zs, hzs⟩, h⟩
    exact ⟨zs, hzs, bind_eq_error_iff.2 (.inl h)⟩

theorem exists_of_mem_left {R : α → β → Prop} {xs : List α} {ys : List β}
    (h : List.Forall₂ R xs ys) {x : α} (hx : x ∈ xs) : ∃ y ∈ ys, R x y := by
  obtain ⟨i, hi, rfl⟩ := List.mem_iff_getElem.1 hx
  have hj : i < ys.length := h.length_eq ▸ hi
  exact ⟨ys[i], List.getElem_mem hj, List.Forall₂.get h hi hj⟩

theorem exists_of_mem_right {R : α → β → Prop} {xs : List α} {ys : List β}
    (h : List.Forall₂ R xs ys) {y : β} (hy : y ∈ ys) : ∃ x ∈ xs, R x y := by
  obtain ⟨i, hj, rfl⟩ := List.mem_iff_getElem.1 hy
  have hi : i < xs.length := h.length_eq ▸ hj
  exact ⟨xs[i], List.getElem_mem hi, List.Forall₂.get h hi hj⟩

theorem exists_forall₂ {R : α → β → Prop} {xs : List α} (h : ∀ x ∈ xs, ∃ y, R x y) :
    ∃ ys, List.Forall₂ R xs ys := by
  induction xs with
  | nil => exact ⟨[], .nil⟩
  | cons x xs ih =>
    obtain ⟨y, hy⟩ := h x List.mem_cons_self
    obtain ⟨ys, hys⟩ := ih fun z hz => h z (List.mem_cons_of_mem _ hz)
    exact ⟨y :: ys, .cons hy hys⟩

theorem forall₂_filter {R : α → β → Prop} {p : α → Bool} {q : β → Bool} {xs : List α} {ys : List β}
    (h : List.Forall₂ R xs ys) (hpq : ∀ x ∈ xs, ∀ y, R x y → p x = q y) :
    List.Forall₂ R (xs.filter p) (ys.filter q) := by
  induction h with
  | nil => exact .nil
  | @cons x y xs ys hxy _ ih =>
    have ht := ih fun x' hx' => hpq x' (List.mem_cons_of_mem _ hx')
    rw [List.filter_cons, List.filter_cons, ← hpq x List.mem_cons_self y hxy]
    split
    · exact .cons hxy ht
    · exact ht

theorem forall₂_of_common {R : α → β → Prop} {S : α → γ → Prop} {T : β → γ → Prop} {xs : List α}
    {ys : List β} {zs : List γ} (h : List.Forall₂ R xs ys) (h' : List.Forall₂ S xs zs)
    (hT : ∀ x ∈ xs, ∀ y z, R x y → S x z → T y z) : List.Forall₂ T ys zs := by
  induction h generalizing zs with
  | nil =>
    cases h'
    exact .nil
  | @cons x y xs ys hxy _ ih =>
    cases h' with
    | cons hxz hrest =>
      refine .cons (hT x List.mem_cons_self y _ hxy hxz) (ih hrest fun x' hx' => ?_)
      exact hT x' (List.mem_cons_of_mem _ hx')

theorem map_eq_map_iff_forall₂ {f : α → γ} {g : β → γ} {xs : List α} {ys : List β} :
    xs.map f = ys.map g ↔ List.Forall₂ (fun x y => f x = g y) xs ys := by
  rw [← List.forall₂_eq_eq_eq, List.forall₂_map_left_iff, List.forall₂_map_right_iff]

theorem map_eq_map_of_forall₂ {R : α → β → Prop} {f : α → γ} {g : β → γ} {xs : List α} {ys : List β}
    (h : List.Forall₂ R xs ys) (hfg : ∀ x y, R x y → f x = g y) : xs.map f = ys.map g :=
  map_eq_map_iff_forall₂.2 (h.imp hfg)

theorem mapM_congr_of_mem {m : Type → Type} [Monad m] [LawfulMonad m] {f g : α → m β} {xs : List α}
    (h : ∀ x ∈ xs, f x = g x) : xs.mapM f = xs.mapM g := by
  induction xs with
  | nil => rfl
  | cons x xs ih =>
    rw [List.mapM_cons, List.mapM_cons, h x List.mem_cons_self,
      ih fun y hy => h y (List.mem_cons_of_mem _ hy)]

theorem mapM_eq_mapM_of_forall₂ {R : α → β → Prop} {f : α → Option γ} {g : β → Option γ}
    {xs : List α} {ys : List β} (h : List.Forall₂ R xs ys) (hfg : ∀ x y, R x y → f x = g y) :
    xs.mapM f = ys.mapM g := by
  induction h with
  | nil => rfl
  | cons hxy _ ih => rw [List.mapM_cons, List.mapM_cons, hfg _ _ hxy, ih]

theorem mapM_eq_none_of_mem {f : α → Option β} {xs : List α} {x : α} (hx : x ∈ xs)
    (hf : f x = none) : xs.mapM f = none := by
  rw [Option.eq_none_iff_forall_ne_some]
  intro ys h
  obtain ⟨y, -, hy⟩ := exists_of_mem_left (mapM_eq_some_iff.1 h) hx
  rw [hf] at hy
  cases hy

/-- Two traversals of one list: the second follows the first through a conversion of its results,
unless the first stops at a failure that the second need not share. -/
theorem mapM_follows {f : α → Except ε β} {g : α → Except ε γ} {r : β → γ} {spared : ε → Prop}
    {xs : List α} (hok : ∀ x ∈ xs, ∀ y, f x = .ok y → g x = .ok (r y))
    (herror : ∀ x ∈ xs, ∀ e, f x = .error e → ¬ spared e → g x = .error e) :
    (∀ ys, xs.mapM f = .ok ys → xs.mapM g = .ok (ys.map r)) ∧
      ∀ e, xs.mapM f = .error e → ¬ spared e → xs.mapM g = .error e := by
  constructor
  · intro ys h
    rw [mapM_eq_ok_iff] at h ⊢
    rw [List.forall₂_map_right_iff]
    have hm := (List.forall₂_and_left xs ys).2 ⟨fun x (hx : x ∈ xs) => hx, h⟩
    exact hm.imp fun x y hxy => hok x hxy.1 y hxy.2
  · intro e h he
    obtain ⟨before, x, after, rfl, hb, hx⟩ := mapM_eq_error_iff.1 h
    refine mapM_eq_error_iff.2 ⟨before, x, after, rfl, ?_, ?_⟩
    · intro y hy
      obtain ⟨z, hz⟩ := hb y hy
      exact ⟨r z, hok y (by simp [hy]) z hz⟩
    · exact herror x (by simp) e hx he

end QueryPlan
