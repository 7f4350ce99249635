/-!
# Log records

Building a plan and reading a source tell what they do in a log. An operation that can fail yields
its log beside its result, so that what was logged before a failure is kept.
-/
namespace QueryPlan

inductive Level where
  | debug
  | warning
  deriving DecidableEq, Repr

inductive Component where
  | context
  | source
  | plan
  deriving DecidableEq, Repr

structure LogRecord where
  level : Level
  component : Component
  message : String
  deriving DecidableEq, Repr

structure Outcome (ε α : Type) where
  log : List LogRecord
  result : Except ε α

namespace Outcome
variable {ε α : Type}

def fail (e : ε) : Outcome ε α :=
  ⟨[], .error e⟩

def after (log : List LogRecord) (o : Outcome ε α) : Outcome ε α :=
  ⟨log ++ o.log, o.result⟩

def map {β : Type} (f : α → β) (o : Outcome ε α) : Outcome ε β :=
  ⟨o.log, o.result.map f⟩

def mapError {δ : Type} (f : ε → δ) (o : Outcome ε α) : Outcome δ α :=
  ⟨o.log, o.result.mapError f⟩

/-- One operation after another; the second is left out when the first fails. -/
def bind {β : Type} (o : Outcome ε α) (f : α → Outcome ε β) : Outcome ε β :=
  match o.result with
  | .ok a => (f a).after o.log
  | .error e => ⟨o.log, .error e⟩

@[simp] theorem log_fail (e : ε) : (fail e : Outcome ε α).log = [] := rfl

@[simp] theorem result_fail (e : ε) : (fail e : Outcome ε α).result = .error e := rfl

@[simp] theorem log_map {β : Type} (f : α → β) (o : Outcome ε α) : (o.map f).log = o.log := rfl

@[simp] theorem result_map {β : Type} (f : α → β) (o : Outcome ε α) :
    (o.map f).result = o.result.map f := rfl

@[simp] theorem log_after (log : List LogRecord) (o : Outcome ε α) :
    (o.after log).log = log ++ o.log := rfl

@[simp] theorem result_after (log : List LogRecord) (o : Outcome ε α) :
    (o.after log).result = o.result := rfl

theorem bind_of_ok {β : Type} {o : Outcome ε α} {f : α → Outcome ε β} {a : α}
    (h : o.result = .ok a) : o.bind f = (f a).after o.log := by
  simp [bind, h]

end Outcome
end QueryPlan
