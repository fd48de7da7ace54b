import ThroughputPlot.Error
import ThroughputPlot.Log

/-!
# Reports

A report is a result together with the log entries written on the way to it.  The
entries written before a failure are kept.
-/

namespace ThroughputPlot

/-- A result and the log entries that came before it. -/
structure Report (α : Type) where
  entries : List Log.Entry
  result : Except PlotError α

namespace Report

variable {α β γ : Type}

def fail (e : PlotError) : Report α := ⟨[], .error e⟩

def log (level : Log.Level) (scope : Log.Scope) (message : String) : Report Unit :=
  ⟨[⟨level, scope, message⟩], .ok ()⟩

/-- A result without entries. -/
def ofExcept (result : Except PlotError α) : Report α := ⟨[], result⟩

/-- Goes on with the value of a report, unless it failed. -/
def bind (r : Report α) (next : α → Report β) : Report β :=
  match r.result with
  | .error e => ⟨r.entries, .error e⟩
  | .ok a => ⟨r.entries ++ (next a).entries, (next a).result⟩

instance : Monad Report where
  pure a := ⟨[], .ok a⟩
  bind := bind

/-! ## The laws of a report -/

theorem bind_of_ok {r : Report α} {a : α} (h : r.result = .ok a) (next : α → Report β) :
    r >>= next = ⟨r.entries ++ (next a).entries, (next a).result⟩ := by
  obtain ⟨entries, result⟩ := r
  cases h
  rfl

theorem bind_of_error {r : Report α} {e : PlotError} (h : r.result = .error e)
    (next : α → Report β) : r >>= next = ⟨r.entries, .error e⟩ := by
  obtain ⟨entries, result⟩ := r
  cases h
  rfl

@[simp] theorem pure_bind' (a : α) (next : α → Report β) : (pure a : Report α) >>= next = next a :=
  bind_of_ok rfl next

theorem bind_pure' (r : Report α) : r >>= pure = r := by
  obtain ⟨entries, result⟩ := r
  cases result with
  | ok a => exact (bind_of_ok rfl _).trans (by simp [pure])
  | error e => rfl

theorem bind_assoc' (r : Report α) (next : α → Report β) (last : β → Report γ) :
    r >>= next >>= last = r >>= fun a => next a >>= last := by
  obtain ⟨entries, result⟩ := r
  cases result with
  | error e => rfl
  | ok a =>
    change bind (bind ⟨entries, .ok a⟩ next) last =
      bind ⟨entries, .ok a⟩ fun a => bind (next a) last
    cases h : (next a).result with
    | error e => simp [bind, h]
    | ok b => simp [bind, h]

instance : LawfulMonad Report :=
  LawfulMonad.mk' Report bind_pure' pure_bind' bind_assoc'

/-! ## The result of a report -/

@[simp] theorem result_pure (a : α) : (pure a : Report α).result = .ok a := rfl

@[simp] theorem result_fail (e : PlotError) : (fail e : Report α).result = .error e := rfl

@[simp] theorem result_log (level : Log.Level) (scope : Log.Scope) (message : String) :
    (log level scope message).result = .ok () := rfl

@[simp] theorem result_ofExcept (result : Except PlotError α) :
    (ofExcept result).result = result := rfl

@[simp] theorem result_bind (r : Report α) (next : α → Report β) :
    (r >>= next).result = r.result.bind fun a => (next a).result := by
  cases h : r.result with
  | error e => rw [bind_of_error h]; rfl
  | ok a => rw [bind_of_ok h]; rfl

@[simp] theorem result_map (f : α → β) (r : Report α) : (f <$> r).result = r.result.map f := by
  rw [← bind_pure_comp, result_bind]
  cases r.result <;> rfl

end Report

end ThroughputPlot
