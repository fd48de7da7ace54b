import ThroughputPlot.Run
import Mathlib.Tactic

/-!
# What an action does to a state

A run over a state comes to a result and leaves a state, and it keeps events on its way.  What it
comes to does not depend on the events before it, so events are left aside here.  The rules below
put result and state together along the steps of an action, and along the steps of a job whose
backend answers from the state.
-/

namespace ThroughputPlot

variable {σ α β : Type}

/-- Whatever was noted before, the action comes from the first state to this result and leaves
the other state. -/
def Run.Yields (action : Run (StateM σ) α) (before : σ) (result : Except PlotError α)
    (after : σ) : Prop :=
  ∀ events, ∃ events', (action.run.run events).run before = ((result, events'), after)

namespace Run

theorem Yields.unique {action : Run (StateM σ) α} {before after other : σ}
    {result result' : Except PlotError α} (hfirst : Yields action before result after)
    (hsecond : Yields action before result' other) : result = result' ∧ after = other := by
  obtain ⟨_, hfirst⟩ := hfirst []
  obtain ⟨_, hsecond⟩ := hsecond []
  rw [hfirst] at hsecond
  obtain ⟨hpair, hafter⟩ := Prod.mk.inj hsecond
  exact ⟨(Prod.mk.inj hpair).1, hafter⟩

/-! ## Single steps -/

theorem yields_pure (a : α) (s : σ) : Yields (pure a) s (.ok a) s := by
  intro events
  exact ⟨events, rfl⟩

theorem yields_note (event : Event) (s : σ) : Yields (note event) s (.ok ()) s := by
  intro events
  exact ⟨events ++ [event], rfl⟩

theorem yields_log (level : Log.Level) (scope : Log.Scope) (message : String) (s : σ) :
    Yields (log level scope message) s (.ok ()) s :=
  yields_note _ s

theorem yields_sample (assignment : Assignment) (stage : String) (s : σ) :
    Yields (sample assignment stage) s (.ok ()) s := by
  unfold sample
  split
  · exact yields_note _ s
  · exact yields_pure () s

theorem yields_ofExcept (result : Except PlotError α) (s : σ) :
    Yields (ofExcept result) s result s := by
  intro events
  refine ⟨events, ?_⟩
  cases result <;> rfl

theorem yields_ofReport {report : Report α} {result : Except PlotError α}
    (hresult : report.result = result) (s : σ) : Yields (ofReport report) s result s := by
  intro events
  refine ⟨events ++ report.entries.map Event.entry, ?_⟩
  unfold ofReport
  rw [hresult]
  cases result <;> rfl

theorem yields_perform {action : StateM σ α} {before after : σ} {a : α}
    (haction : action.run before = (a, after)) :
    Yields (perform action) before (.ok a) after := by
  intro events
  refine ⟨events, ?_⟩
  have hrun : ((perform action).run.run events).run before =
      ((.ok (action.run before).1, events), (action.run before).2) := rfl
  rw [hrun, haction]

/-! ## One step after the other -/

theorem Yields.bind {action : Run (StateM σ) α} {next : α → Run (StateM σ) β}
    {before middle after : σ} {a : α} {result : Except PlotError β}
    (haction : Yields action before (.ok a) middle) (hnext : Yields (next a) middle result after) :
    Yields (action >>= next) before result after := by
  intro events
  obtain ⟨between, hfirst⟩ := haction events
  obtain ⟨events', hlast⟩ := hnext between
  refine ⟨events', ?_⟩
  rw [ExceptT.run_bind, StateT.run_bind, StateT.run_bind, hfirst]
  exact hlast

theorem Yields.bind_error {action : Run (StateM σ) α} {next : α → Run (StateM σ) β}
    {before after : σ} {e : PlotError} (haction : Yields action before (.error e) after) :
    Yields (action >>= next) before (.error e) after := by
  intro events
  obtain ⟨events', hfirst⟩ := haction events
  refine ⟨events', ?_⟩
  rw [ExceptT.run_bind, StateT.run_bind, StateT.run_bind, hfirst]
  rfl

/-- What follows and leaves the state as it is still decides the result. -/
theorem Yields.bind_still {action : Run (StateM σ) α} {next : α → Run (StateM σ) β}
    {before after : σ} {result : Except PlotError α} {f : α → Except PlotError β}
    (haction : Yields action before result after) (hnext : ∀ a, Yields (next a) after (f a) after) :
    Yields (action >>= next) before (result.bind f) after := by
  cases result with
  | error e => exact haction.bind_error
  | ok a => exact haction.bind (hnext a)

theorem Yields.bind_return {action : Run (StateM σ) α} {next : α → Run (StateM σ) α}
    {before after : σ} {result : Except PlotError α} (haction : Yields action before result after)
    (hnext : ∀ a, Yields (next a) after (.ok a) after) :
    Yields (action >>= next) before result after := by
  have hstill := haction.bind_still hnext
  cases result <;> exact hstill

theorem Yields.bind_pure {action : Run (StateM σ) α} {before after : σ}
    {result : Except PlotError α} (haction : Yields action before result after) (f : α → β) :
    Yields (action >>= fun a => pure (f a)) before (result.map f) after := by
  have hstill := haction.bind_still fun a => yields_pure (f a) after
  cases result <;> exact hstill

/-- A step may be left out if it leaves the state as it is. -/
theorem yields_optional {condition : Prop} [Decidable condition] {step : Run (StateM σ) Unit}
    {next : Unit → Run (StateM σ) β} {before after : σ} {result : Except PlotError β}
    (hstep : Yields step before (.ok ()) before) (hnext : Yields (next ()) before result after) :
    Yields (if condition then step >>= next else next ()) before result after := by
  by_cases hcondition : condition
  · rw [if_pos hcondition]
    exact hstep.bind hnext
  · rw [if_neg hcondition]
    exact hnext

end Run

/-! ## The steps of a job -/

/-- The chart of a job whose input holds the given bytes. -/
def Assignment.chartOf (assignment : Assignment) (job : ChartJob) (content : Bytes) :
    Except PlotError Chart :=
  (Table.read job.input (Utf8.decodeLossy content)).result.bind fun table =>
    (Chart.build job table assignment.labels assignment.settings.allSeries).result

namespace Run

variable {π : Type} {backend : Backend (StateM σ) π} {assignment : Assignment} {job : ChartJob}
  {before middle after : σ} {content : Except PlotError Bytes}

theorem yields_extract (hread : (backend.read job.input).run before = (content, after)) :
    Yields (backend.extract job) before
      (content.bind fun bytes => (Table.read job.input (Utf8.decodeLossy bytes)).result) after := by
  unfold Backend.extract
  apply (yields_log _ _ _ _).bind
  apply (yields_note _ _).bind
  apply (yields_perform hread).bind
  exact (yields_ofExcept _ _).bind_still fun bytes => yields_ofReport rfl _

/-- A chart is built from a table that is read first. -/
theorem bind_chartOf (assignment : Assignment) (job : ChartJob)
    (content : Except PlotError Bytes) :
    content.bind (assignment.chartOf job) =
      (content.bind fun bytes => (Table.read job.input (Utf8.decodeLossy bytes)).result).bind
        fun table => (assignment.transform job table).result := by
  -- What a job makes of its table is the chart that is built with the labels and the settings.
  cases content <;> rfl

theorem yields_planJob (hread : (backend.read job.input).run before = (content, after)) :
    Yields (assignment.planJob backend job) before
      ((content.bind (assignment.chartOf job)).map
        (.ofChart job (assignment.settings.outputLocation job))) after := by
  have hextract := yields_extract hread
  rw [bind_chartOf]
  unfold Assignment.planJob
  generalize (content.bind fun bytes =>
    (Table.read job.input (Utf8.decodeLossy bytes)).result) = table at hextract
  cases table with
  | error e => exact hextract.bind_error
  | ok table =>
      apply hextract.bind
      exact (yields_ofReport rfl _).bind_pure _

section

variable [ToString π]

theorem yields_load_of_error {chart : Chart} {e : PlotError}
    (hpath : (backend.outputPath job.output).run before = (.error e, after)) :
    Yields (backend.load job chart) before (.error e) after := by
  unfold Backend.load
  apply (yields_note _ _).bind
  apply (yields_perform hpath).bind
  exact (yields_ofExcept _ _).bind_error

theorem yields_load_of_ok {chart : Chart} {path : π} {report : Report Unit}
    {result : Except PlotError Unit}
    (hpath : (backend.outputPath job.output).run before = (.ok path, middle))
    (hrender : (backend.render chart path).run middle = (report, after))
    (hreport : report.result = result) :
    Yields (backend.load job chart) before (result.map fun _ => toString path) after := by
  unfold Backend.load
  apply (yields_note _ _).bind
  apply (yields_perform hpath).bind
  apply (yields_ofExcept (.ok path) _).bind
  apply (yields_note _ _).bind
  apply (yields_perform hrender).bind
  exact (yields_ofReport hreport _).bind_pure fun _ => toString path

theorem yields_runJob_of_unbuilt {e : PlotError}
    (hread : (backend.read job.input).run before = (content, after))
    (hchart : content.bind (assignment.chartOf job) = .error e) :
    Yields (assignment.runJob backend job) before (.error e) after := by
  have hextract := yields_extract hread
  rw [bind_chartOf] at hchart
  unfold Assignment.runJob
  apply (yields_log _ _ _ _).bind
  generalize (content.bind fun bytes =>
    (Table.read job.input (Utf8.decodeLossy bytes)).result) = table at hextract hchart
  cases table with
  | error e' =>
      obtain rfl : e' = e := Except.error.inj hchart
      exact hextract.bind_error
  | ok table =>
      apply hextract.bind
      apply (yields_log _ _ _ _).bind
      apply (yields_sample _ _ _).bind
      exact (yields_ofReport hchart _).bind_error

/-- Once the chart is built, all depends on finding it a place and drawing it. -/
theorem yields_runJob_of_built {chart : Chart} {result : Except PlotError String}
    (hread : (backend.read job.input).run before = (content, middle))
    (hchart : content.bind (assignment.chartOf job) = .ok chart)
    (hload : Yields (backend.load job chart) middle result after) :
    Yields (assignment.runJob backend job) before result after := by
  have hextract := yields_extract hread
  rw [bind_chartOf] at hchart
  generalize (content.bind fun bytes =>
    (Table.read job.input (Utf8.decodeLossy bytes)).result) = table at hextract hchart
  cases table with
  | error e => contradiction
  | ok table =>
      unfold Assignment.runJob
      apply (yields_log _ _ _ _).bind
      apply hextract.bind
      apply (yields_log _ _ _ _).bind
      apply (yields_sample _ _ _).bind
      apply (yields_ofReport hchart _).bind
      apply (yields_log _ _ _ _).bind
      apply hload.bind_return
      intro output
      apply (yields_log _ _ _ _).bind
      apply (yields_sample _ _ _).bind
      exact yields_pure output _

/-- A run adds nothing to what its jobs do. -/
theorem yields_run {result : Except PlotError (List String)}
    (hjobs : Yields (assignment.settings.charts.mapM (assignment.runJob backend)) before result
      after) :
    Yields (assignment.run backend) before result after := by
  unfold Assignment.run
  apply (yields_log _ _ _ _).bind
  apply (yields_sample _ _ _).bind
  apply hjobs.bind_return
  intro outputs
  apply (yields_sample _ _ _).bind
  exact yields_pure outputs _

end

end Run

end ThroughputPlot
