import QueryPlan.Proofs.Plan.Building
/-!
# What a derived field is made of

The field of an expression has a closed form: its root gives the name, the end of its left spine the
type, and only a column alone is nullable. What lies off the left spine is resolved and has no other
effect, so it can be replaced by anything that resolves. The names that a projection derives, and with
them its log, are the same over every input.
-/
namespace QueryPlan

namespace Expr

/-- The end of the left spine, which goes down the left operands of arithmetic expressions and the
arguments of aggregations. -/
def spineEnd : Expr → Expr
  | .arith _ left _ => left.spineEnd
  | .aggregation _ argument => argument.spineEnd
  | e => e

inductive EndType (s : Schema) : Expr → DataType → Prop where
  | column {name : String} {f : Field} (h : s.resolve name = .ok f) :
    EndType s (.column name) f.type
  | text (value : String) : EndType s (.text value) .utf8
  | integer (value : Int64) : EndType s (.integer value) .int64
  | logic (op : LogicOp) (left right : Expr) : EndType s (.logic op left right) .boolean

structure ClosedForm (s : Schema) (e : Expr) (f : Field) : Prop where
  name : f.name = e.fieldName
  type : EndType s e.spineEnd f.type
  nullable : f.nullable = true ↔
    ∃ name g, e = .column name ∧ s.resolve name = .ok g ∧ g.nullable = true

variable {s : Schema} {e x y : Expr} {f g : Field}

theorem EndType.unique {t u : DataType} (h : EndType s e t) (h' : EndType s e u) : t = u := by
  cases h with
  | column h =>
    cases h' with
    | column h' =>
      rw [h] at h'
      exact congrArg Field.type (Except.ok.inj h')
  | text | integer | logic =>
    cases h'
    rfl

theorem endType_of_field (h : e.field s = .ok f) : EndType s e.spineEnd f.type := by
  induction e generalizing f with
  | column name => exact .column h
  | text | integer =>
    cases h
    constructor
  | logic =>
    obtain ⟨_, _, h⟩ := bind_eq_ok_iff.1 h
    obtain ⟨_, _, h⟩ := bind_eq_ok_iff.1 h
    cases h
    constructor
  | arith op left right ihl =>
    obtain ⟨_, hl, h⟩ := bind_eq_ok_iff.1 h
    obtain ⟨_, _, h⟩ := bind_eq_ok_iff.1 h
    have ht := ihl hl
    cases h
    exact ht
  | aggregation func argument ih =>
    obtain ⟨_, ha, h⟩ := bind_eq_ok_iff.1 h
    have ht := ih ha
    cases h
    exact ht

theorem nullable_of_field (h : e.field s = .ok f) : f.nullable = true ↔
    ∃ name g, e = .column name ∧ s.resolve name = .ok g ∧ g.nullable = true := by
  cases e with
  | column name =>
    constructor
    · exact fun hn => ⟨name, f, rfl, h, hn⟩
    · rintro ⟨_, g, hc, hg, hn⟩
      cases hc
      rw [field, hg] at h
      exact Except.ok.inj h ▸ hn
  | text | integer =>
    cases h
    simp
  | logic | arith =>
    obtain ⟨_, _, h⟩ := bind_eq_ok_iff.1 h
    obtain ⟨_, _, h⟩ := bind_eq_ok_iff.1 h
    cases h
    simp
  | aggregation =>
    obtain ⟨_, _, h⟩ := bind_eq_ok_iff.1 h
    cases h
    simp

theorem closedForm_of_field (h : e.field s = .ok f) : e.ClosedForm s f :=
  ⟨name_of_field h, endType_of_field h, nullable_of_field h⟩

theorem ClosedForm.unique (hf : e.ClosedForm s f) (hg : e.ClosedForm s g) : f = g := by
  obtain ⟨name, type, nullable⟩ := f
  obtain ⟨name', type', nullable'⟩ := g
  rw [Field.mk.injEq]
  exact ⟨hf.name.trans hg.name.symm, hf.type.unique hg.type,
    Bool.eq_iff_iff.2 (hf.nullable.trans hg.nullable.symm)⟩

theorem field_eq_ok_iff :
    e.field s = .ok f ↔ (∀ n ∈ e.columns, s.names.count n = 1) ∧ e.ClosedForm s f := by
  constructor
  · exact fun h => ⟨exists_field_iff.1 ⟨f, h⟩, closedForm_of_field h⟩
  · rintro ⟨hcolumns, hf⟩
    obtain ⟨g, hg⟩ := exists_field_iff.2 hcolumns
    rw [hg, (closedForm_of_field hg).unique hf]

end Expr

inductive Site where
  | here
  | logicLeft (op : LogicOp) (site : Site) (right : Expr)
  | logicRight (op : LogicOp) (left : Expr) (site : Site)
  | arithLeft (op : ArithOp) (site : Site) (right : Expr)
  | arithRight (op : ArithOp) (left : Expr) (site : Site)
  | argument (func : AggFunc) (site : Site)
  deriving DecidableEq, Repr

namespace Site

def fill : Site → Expr → Expr
  | here, x => x
  | logicLeft op site right, x => .logic op (site.fill x) right
  | logicRight op left site, x => .logic op left (site.fill x)
  | arithLeft op site right, x => .arith op (site.fill x) right
  | arithRight op left site, x => .arith op left (site.fill x)
  | argument func site, x => .aggregation func (site.fill x)

/-- Whether the place is a right operand or lies in one, or lies below a comparison or connective. -/
def isAside : Site → Bool
  | here => false
  | logicLeft .. | logicRight .. | arithRight .. => true
  | arithLeft _ site _ | argument _ site => site.isAside

def columns : Site → List String
  | here => []
  | logicLeft _ site right | arithLeft _ site right => site.columns ++ right.columns
  | logicRight _ left site | arithRight _ left site => left.columns ++ site.columns
  | argument _ site => site.columns

variable {s : Schema} {site : Site} {x y : Expr} {f g : Field}

theorem mem_columns_fill {n : String} :
    n ∈ (site.fill x).columns ↔ n ∈ site.columns ∨ n ∈ x.columns := by
  induction site with
  | here => simp [fill, columns]
  | logicLeft _ _ _ ih | logicRight _ _ _ ih | arithLeft _ _ _ ih | arithRight _ _ _ ih =>
    simp only [fill, Expr.columns, columns, List.mem_append, ih]
    tauto
  | argument _ _ ih => exact ih

theorem fieldName_fill (h : site.isAside = true) :
    (site.fill x).fieldName = (site.fill y).fieldName := by
  cases site with
  | here => cases h
  | logicLeft | logicRight | arithLeft | arithRight | argument => rfl

theorem fill_ne_column (h : site.isAside = true) (name : String) : site.fill x ≠ .column name := by
  cases site with
  | here => cases h
  | logicLeft | logicRight | arithLeft | arithRight | argument => exact Expr.noConfusion

/-- The left spine does not come to a place aside, unless its end lies above it. -/
theorem endType_fill {t : DataType} (h : site.isAside = true)
    (ht : Expr.EndType s (site.fill x).spineEnd t) : Expr.EndType s (site.fill y).spineEnd t := by
  induction site with
  | here => cases h
  | logicLeft | logicRight =>
    cases ht
    exact .logic ..
  | arithLeft _ _ _ ih => exact ih h ht
  | arithRight => exact ht
  | argument _ _ ih => exact ih h ht

theorem closedForm_fill (h : site.isAside = true) (hf : (site.fill x).ClosedForm s f) :
    (site.fill y).ClosedForm s f where
  name := hf.name.trans (fieldName_fill h)
  type := endType_fill h hf.type
  nullable := by
    rw [hf.nullable]
    simp [fill_ne_column h]

/-- What lies aside can be replaced by anything that resolves. -/
theorem field_fill (h : site.isAside = true) (hf : (site.fill x).field s = .ok f)
    (hy : y.field s = .ok g) : (site.fill y).field s = .ok f := by
  obtain ⟨hcolumns, hclosed⟩ := Expr.field_eq_ok_iff.1 hf
  refine Expr.field_eq_ok_iff.2 ⟨fun n hn => ?_, closedForm_fill h hclosed⟩
  rcases mem_columns_fill.1 hn with hn | hn
  · exact hcolumns n (mem_columns_fill.2 (.inl hn))
  · exact (Expr.field_eq_ok_iff.1 hy).1 n hn

end Site

namespace Plan
variable {p q a b : Plan} {exprs : List Expr} {log log' : List LogRecord}

theorem log_of_buildProjection (h : p.buildProjection exprs = ⟨log, .ok a⟩)
    (h' : q.buildProjection exprs = ⟨log', .ok b⟩) : log = log' := by
  obtain ⟨derived, hd, rfl, rfl⟩ := buildProjection_eq_iff.1 h
  obtain ⟨derived', hd', rfl, rfl⟩ := buildProjection_eq_iff.1 h'
  have hnames : derived.duplicateNames = derived'.duplicateNames := by
    rw [Schema.duplicateNames, Schema.duplicateNames, Schema.names_of_derive hd,
      Schema.names_of_derive hd']
  rw [records, records, duplicateWarning, duplicateWarning, hnames]

theorem exists_warning_iff (h : p.buildProjection exprs = ⟨log, .ok a⟩) :
    (∃ w ∈ log, w.level = .warning) ↔ ¬ (exprs.map Expr.fieldName).Nodup := by
  obtain ⟨derived, hd, rfl, rfl⟩ := buildProjection_eq_iff.1 h
  rw [← Schema.names_of_derive hd, ← Schema.duplicateNames_eq_nil_iff, records, duplicateWarning]
  cases derived.duplicateNames with
  | nil => simp [created]
  | cons n names => simp

/-- The field of an expression has its closed form, what lies off the left spine can be replaced, and
a projection warns of repeated names whatever its input is. -/
theorem derived_field (p : Plan) :
    (∀ (e : Expr) (f : Field), e.field p.schema = .ok f ↔
      (∀ n ∈ e.columns, p.schema.names.count n = 1) ∧ e.ClosedForm p.schema f) ∧
    (∀ (site : Site) (x y : Expr) (f g : Field), site.isAside = true →
      (site.fill x).field p.schema = .ok f → y.field p.schema = .ok g →
      (site.fill y).field p.schema = .ok f) ∧
    ∀ (q : Plan) (exprs : List Expr) (log log' : List LogRecord) (a b : Plan),
      p.buildProjection exprs = ⟨log, .ok a⟩ → q.buildProjection exprs = ⟨log', .ok b⟩ →
      log = log' ∧ ((∃ w ∈ log, w.level = .warning) ↔ ¬ (exprs.map Expr.fieldName).Nodup) :=
  ⟨fun _ _ => Expr.field_eq_ok_iff, fun _ _ _ _ _ h => Site.field_fill h,
    fun _ _ _ _ _ _ h h' => ⟨log_of_buildProjection h h', exists_warning_iff h⟩⟩

private def measured : Plan :=
  ofFile "t.csv" ⟨[⟨"a", .int64, true⟩, ⟨"b", .utf8, false⟩]⟩

private def narrowed : Plan :=
  ofFile "u.csv" ⟨[⟨"a", .utf8, false⟩]⟩

/-- A comparison takes the place of a text below a sum, which stays a sum of integers. A column beside
a text of its name is warned of over both files. -/
theorem mixed_operand_replaced : ∃ log a b,
    (Expr.aggregation .sum (.arith .add (.column "a") (.column "b"))).ClosedForm measured.schema
      ⟨"sum", .int64, false⟩ ∧
    (Expr.aggregation .sum (.arith .add (.column "a") (.logic .lt (.column "b") (.integer 1)))).field
      measured.schema = .ok ⟨"sum", .int64, false⟩ ∧
    measured.buildProjection [.column "a", .text "a"] = ⟨log, .ok a⟩ ∧
    narrowed.buildProjection [.column "a", .text "a"] = ⟨log, .ok b⟩ ∧
    ∃ w ∈ log, w.level = .warning := by
  obtain ⟨hform, hfill, hwarn⟩ := derived_field measured
  have hfield : (Expr.aggregation .sum (.arith .add (.column "a") (.column "b"))).field
      measured.schema = .ok ⟨"sum", .int64, false⟩ := rfl
  have hreplaced := hfill (.argument .sum (.arithRight .add (.column "a") .here)) (.column "b")
    (.logic .lt (.column "b") (.integer 1)) _ _ rfl hfield rfl
  have hmixed : measured.buildProjection [.column "a", .text "a"] = ⟨_, .ok _⟩ := rfl
  have hnarrowed : narrowed.buildProjection [.column "a", .text "a"] = ⟨_, .ok _⟩ := rfl
  obtain ⟨hlog, hiff⟩ := hwarn narrowed _ _ _ _ _ hmixed hnarrowed
  exact ⟨_, _, _, ((hform _ _).1 hfield).2, hreplaced, hmixed, hlog ▸ hnarrowed,
    hiff.2 (by decide)⟩

end Plan
end QueryPlan
