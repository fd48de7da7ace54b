import ThroughputPlot.Binary64.Layout
import ThroughputPlot.Plan
import ThroughputPlot.Table.Reader
import ThroughputPlot.Workspace

/-!
# Runs

A run carries out jobs one after the other and stops at the first failure.  Each job
reads its table, builds its chart, and draws it.  A planning run reads and builds in the
same way and says what would be drawn.  Whatever happens is kept as a list of events in
order, also when the run fails.
-/

namespace ThroughputPlot

inductive Event where
  | entry (entry : Log.Entry)
  | read (input : String)
  | prepared (output : String)
  | rendered (path : String) (chart : Chart)
  /-- The use of processor and memory is sampled after a stage. -/
  | sampled (stage : String)
deriving DecidableEq

/-- An action that may fail and that keeps the events on its way. -/
abbrev Run (m : Type → Type) := ExceptT PlotError (StateT (List Event) m)

structure Assignment where
  settings : Settings
  labels : LabelValues
  /-- Whether the use of processor and memory is sampled. -/
  monitor : Bool
deriving DecidableEq

namespace Run

variable {m : Type → Type} [Monad m] {α : Type}

def note (event : Event) : Run m Unit := modify (· ++ [event])

def log (level : Log.Level) (scope : Log.Scope) (message : String) : Run m Unit :=
  note (.entry ⟨level, scope, message⟩)

/-- Goes on with a result, unless it is a failure. -/
def ofExcept : Except PlotError α → Run m α
  | .ok a => pure a
  | .error e => throw e

/-- Takes over the entries and the result of a report. -/
def ofReport (report : Report α) : Run m α := do
  modify (· ++ report.entries.map Event.entry)
  ofExcept report.result

/-- Does something in the monad below. -/
def perform (action : m α) : Run m α := ExceptT.lift (StateT.lift action)

/-- Samples the use of processor and memory, if that is wanted. -/
def sample (assignment : Assignment) (stage : String) : Run m Unit :=
  if assignment.monitor then note (.sampled stage) else pure ()

end Run

/-! ## The steps of a job -/

/-- The place of an output as the settings tell it. -/
def Settings.outputLocation (settings : Settings) (job : ChartJob) : String :=
  Path.join settings.outputDir job.output

def AxisRange.text (range : AxisRange) : String :=
  logNumber.write range.start ++ ".." ++ logNumber.write range.stop

namespace Backend

variable {m : Type → Type} [Monad m] {π : Type}

def extract (backend : Backend m π) (job : ChartJob) : Run m Table := do
  Run.log .debug .reading s!"Reading table: {job.input}"
  Run.note (.read job.input)
  let content ← Run.ofExcept (← Run.perform (backend.read job.input))
  Run.ofReport (Table.read job.input (Utf8.decodeLossy content))

def load [ToString π] (backend : Backend m π) (job : ChartJob) (chart : Chart) :
    Run m String := do
  Run.note (.prepared job.output)
  let path ← Run.ofExcept (← Run.perform (backend.outputPath job.output))
  Run.note (.rendered (toString path) chart)
  Run.ofReport (← Run.perform (backend.render chart path))
  return toString path

end Backend

namespace Assignment

variable {m : Type → Type} [Monad m] {π : Type}

def transform (assignment : Assignment) (job : ChartJob) (table : Table) : Report Chart :=
  Chart.build job table assignment.labels assignment.settings.allSeries

def runJob [ToString π] (assignment : Assignment) (backend : Backend m π) (job : ChartJob) :
    Run m String := do
  Run.log .info .run s!"📈 [{job.name}] {job.input} -> {job.output}"
  let table ← backend.extract job
  Run.log .info .run s!"[{job.name}] Loaded {table.size} rows"
  Run.sample assignment s!"{job.name} extract"
  let chart ← Run.ofReport (assignment.transform job table)
  let x := chart.xRange.text
  let y := chart.yRange.text
  Run.log .debug .run s!"[{job.name}] {chart.series.length} series, x {x}, y {y}"
  let output ← backend.load job chart
  Run.log .info .run s!"[{job.name}] Saved {output}"
  Run.sample assignment s!"{job.name} render"
  return output

def run [ToString π] (assignment : Assignment) (backend : Backend m π) :
    Run m (List String) := do
  Run.log .info .run s!"Starting plot run ({assignment.settings.charts.length} charts)"
  Run.sample assignment "Start"
  let outputs ← assignment.settings.charts.mapM (assignment.runJob backend)
  Run.sample assignment "Done"
  return outputs

def planJob (assignment : Assignment) (backend : Backend m π) (job : ChartJob) :
    Run m ChartPlan := do
  let table ← backend.extract job
  let chart ← Run.ofReport (assignment.transform job table)
  return .ofChart job (assignment.settings.outputLocation job) chart

def plan (assignment : Assignment) (backend : Backend m π) : Run m (List ChartPlan) :=
  assignment.settings.charts.mapM (assignment.planJob backend)

end Assignment

end ThroughputPlot
