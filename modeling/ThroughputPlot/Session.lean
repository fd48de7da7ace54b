import ThroughputPlot.CommandLine.Reader
import ThroughputPlot.CommandLine.Summary
import ThroughputPlot.Config.Reader
import ThroughputPlot.Json.Writer
import ThroughputPlot.Log.Filter
import ThroughputPlot.Run
import ThroughputPlot.Validation

/-!
# Sessions

A session prints the two integers of its command line, loads a configuration file if
one is given, checks the settings, and then either carries out the jobs or plans them.
What it prints after the first line is printed only when everything went well.
-/

namespace ThroughputPlot

/-- What a session leaves behind besides files. -/
structure Outcome where
  exitCode : UInt32
  /-- The lines of the standard output. -/
  output : List String
  /-- The lines of the standard error output other than log entries. -/
  complaint : List String
  events : List Event
deriving DecidableEq

/-- The exit status after a command line that is not accepted; asking for help is no fault. -/
def UsageError.exitCode : UsageError → UInt32
  | .help => 0
  | _ => 2

namespace Session

variable {m : Type → Type} [Monad m]

def readConfig (workspace : Workspace m) (diagnosis : Config.Diagnosis)
    (environment : Environment) (path : String) : Run m Config := do
  let content ← Run.ofExcept ((← Run.perform (workspace.readFile path)).mapError .io)
  match Utf8.decode? content with
  | none => throw (.io .notUtf8)
  | some text => Run.ofExcept (Config.read diagnosis environment text)

/-- Reads a configuration file, and puts the command line before it. -/
def loadConfig (workspace : Workspace m) (diagnosis : Config.Diagnosis)
    (environment : Environment) (line : CommandLine) (path : String) : Run m Settings := do
  Run.log .info .process s!"📁 Loading configuration from: {path}"
  let config ← readConfig workspace diagnosis environment path
  return (config.override line.options.overrides).settings

def planLines (assignment : Assignment) (backend : Backend m) : Run m (List String) := do
  Run.log .info .process "🔍 DRY RUN MODE - no images will be written"
  let plans ← assignment.plan backend
  return [(Json.array (plans.map ChartPlan.toJson)).indented]

def outputLines (assignment : Assignment) (backend : Backend m) : Run m (List String) := do
  let outputs ← assignment.run backend
  Run.log .info .process s!"✅ Rendered {outputs.length} charts"
  return outputs.map fun output => s!"📁 Output saved to: {output}"

def execute (workspace : Workspace m) (line : CommandLine) (settings : Settings) :
    Run m (List String) := do
  Run.ofExcept settings.validate
  let image := s!"{settings.width.toNat}x{settings.height.toNat}"
  let charts := settings.charts.length
  Run.log .debug .process
    s!"Input: {settings.inputDir}, output: {settings.outputDir}, image: {image}, charts: {charts}"
  if line.options.monitor then Run.log .info .process "🔍 System monitoring enabled"
  let assignment : Assignment := ⟨settings, line.labels, line.options.monitor⟩
  if line.options.dryRun then planLines assignment (workspace.backend settings)
  else outputLines assignment (workspace.backend settings)

/-- What a session does before it may complain; gives the lines after the first. -/
def body (workspace : Workspace m) (diagnosis : Config.Diagnosis) (environment : Environment)
    (line : CommandLine) : Run m (List String) := do
  Run.log .info .process "Starting rhm-plot"
  if line.options.verbose then
    Run.log .debug .process s!"CLI config: {line.summary}"
  let settings ← match line.options.config with
    | some path => loadConfig workspace diagnosis environment line path
    | none => pure line.settings
  execute workspace line settings

def firstLine (labels : LabelValues) : String :=
  decimalText labels.numKeys ++ " " ++ decimalText labels.numChurnOps

def failureEntries (e : PlotError) : List Log.Entry :=
  let details := s!"(Category: {e.category.name}, Severity: {e.severity.name})"
  [⟨.error, .process, s!"❌ Plotting failed: {e.message} {details}"⟩,
    ⟨.error, .process, s!"💡 Recovery suggestion: {e.suggestion}"⟩]

def outcome (labels : LabelValues) (result : Except PlotError (List String))
    (events : List Event) : Outcome :=
  match result with
  | .ok lines => ⟨0, firstLine labels :: lines, [], events⟩
  | .error e => {
      exitCode := e.severity.exitCode
      output := [firstLine labels]
      complaint := [s!"❌ {e.friendlyMessage}", s!"💡 {e.suggestion}"]
      events := events ++ (failureEntries e).map .entry
    }

def run (workspace : Workspace m) (diagnosis : Config.Diagnosis) (environment : Environment)
    (line : CommandLine) : m Outcome := do
  let (result, events) ← (body workspace diagnosis environment line).run.run []
  return outcome line.labels result events

end Session

/-- The log entry of an event, if it is one. -/
def Event.entry? : Event → Option Log.Entry
  | .entry e => some e
  | _ => none

def Outcome.shownEntries (outcome : Outcome) (environment : Environment) (line : CommandLine) :
    List Log.Entry :=
  let given := environment.get? Log.Filter.variableName
  let filter := Log.Filter.choose line.options.verbose given
  (outcome.events.filterMap Event.entry?).filter (Log.Filter.shows filter)

end ThroughputPlot
