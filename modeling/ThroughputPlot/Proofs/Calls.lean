import ThroughputPlot.Proofs.Effects
import Mathlib.Tactic

/-!
# The calls that a run makes

A run asks its storage and its renderer for things, one after the other.  Here the backend
answers by fixed functions and keeps a list of what it was asked, so that the list shows the
calls themselves and not what the run notes about them.  A run is then known by its result and
its calls, and both are put together along the steps of the run.
-/

namespace ThroughputPlot

/-- What a run can ask of its backend. -/
inductive Call (π : Type) where
  | read (input : String)
  | outputPath (output : String)
  | render (chart : Chart) (path : π)

structure Answers (π : Type) where
  read : String → Except PlotError Bytes
  outputPath : String → Except PlotError π
  render : Chart → π → Report Unit

variable {π α β : Type}

abbrev Recorder (π : Type) := StateM (List (Call π))

/-- Answers from the given functions, after the call has been put on the record. -/
def Answers.backend (answers : Answers π) : Backend (Recorder π) π where
  read input := do
    modify (· ++ [.read input])
    return answers.read input
  outputPath output := do
    modify (· ++ [.outputPath output])
    return answers.outputPath output
  render chart path := do
    modify (· ++ [.render chart path])
    return answers.render chart path

/-- The result of an action and the calls that it makes. -/
def Run.observe (action : Run (Recorder π) α) : Except PlotError α × List (Call π) :=
  let record := (action.run.run []).run []
  (record.1.1, record.2)

/-- Whatever happened before, the action makes these calls and has this result. -/
def Run.Performs (action : Run (Recorder π) α) (calls : List (Call π))
    (result : Except PlotError α) : Prop :=
  ∀ events before, ∃ events',
    (action.run.run events).run before = ((result, events'), before ++ calls)

namespace Run

theorem performs_iff_yields {action : Run (Recorder π) α} {calls : List (Call π)}
    {result : Except PlotError α} :
    Performs action calls result ↔ ∀ before, Yields action before result (before ++ calls) :=
  forall_comm

theorem Performs.observe_eq {action : Run (Recorder π) α} {calls : List (Call π)}
    {result : Except PlotError α} (hperforms : Performs action calls result) :
    observe action = (result, calls) := by
  obtain ⟨events, hrecord⟩ := hperforms [] []
  simp only [observe, hrecord, List.nil_append]

/-! ## One step after the other -/

theorem Performs.bind {action : Run (Recorder π) α} {next : α → Run (Recorder π) β}
    {calls later : List (Call π)} {a : α} {result : Except PlotError β}
    (haction : Performs action calls (.ok a)) (hnext : Performs (next a) later result) :
    Performs (action >>= next) (calls ++ later) result := by
  rw [performs_iff_yields] at haction hnext ⊢
  intro before
  rw [← List.append_assoc]
  exact (haction before).bind (hnext (before ++ calls))

theorem Performs.bind_error {action : Run (Recorder π) α} {next : α → Run (Recorder π) β}
    {calls : List (Call π)} {e : PlotError} (haction : Performs action calls (.error e)) :
    Performs (action >>= next) calls (.error e) := by
  rw [performs_iff_yields] at haction ⊢
  exact fun before => (haction before).bind_error

theorem performs_pure (a : α) : Performs (pure a : Run (Recorder π) α) [] (.ok a) := by
  rw [performs_iff_yields]
  intro before
  rw [List.append_nil]
  exact yields_pure a before

theorem Performs.bind_pure {action : Run (Recorder π) α} {calls : List (Call π)}
    {result : Except PlotError α} (haction : Performs action calls result) (f : α → β) :
    Performs (action >>= fun a => pure (f a)) calls (result.map f) := by
  rw [performs_iff_yields] at haction ⊢
  exact fun before => (haction before).bind_pure f

/-! ## The last steps of a job -/

section

variable [ToString π]

theorem performs_load_of_error {answers : Answers π} {job : ChartJob} {e : PlotError}
    (hpath : answers.outputPath job.output = .error e) (chart : Chart) :
    Performs (answers.backend.load job chart) [.outputPath job.output] (.error e) := by
  rw [performs_iff_yields]
  intro before
  apply yields_load_of_error
  rw [← hpath]
  rfl

theorem performs_load_of_ok {answers : Answers π} {job : ChartJob} {path : π}
    {chart : Chart} {result : Except PlotError Unit}
    (hpath : answers.outputPath job.output = .ok path)
    (hrender : (answers.render chart path).result = result) :
    Performs (answers.backend.load job chart) [.outputPath job.output, .render chart path]
      (result.map fun _ => toString path) := by
  rw [performs_iff_yields]
  intro before
  have hplaced : (answers.backend.outputPath job.output).run before =
      (.ok path, before ++ [.outputPath job.output]) := by
    rw [← hpath]
    rfl
  rw [List.append_cons]
  exact yields_load_of_ok hplaced rfl hrender

end

end Run

end ThroughputPlot
