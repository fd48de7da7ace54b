import ThroughputPlot.CommandLine
import ThroughputPlot.Text.Quoted

/-!
# The command line in a log line

The summary names every value of the command line and the charts that are drawn without
a configuration file.
-/

namespace ThroughputPlot

/-- The summary of a record: its name and its fields in braces. -/
def summaryOfFields (name : String) (fields : List (String × String)) : String :=
  let all := ", ".intercalate (fields.map fun (key, value) => key ++ ": " ++ value)
  s!"{name} \x7b {all} \x7d"

def summaryOfOption {α : Type} (write : α → String) : Option α → String
  | none => "None"
  | some value => s!"Some({write value})"

def summaryOfSwitch (isOn : Bool) : String := if isOn then "true" else "false"

def summaryOfList {α : Type} (write : α → String) (items : List α) : String :=
  "[" ++ ", ".intercalate (items.map write) ++ "]"

def ChartJob.summary (job : ChartJob) : String :=
  summaryOfFields "ChartJob" [
    ("name", Text.quote job.name),
    ("input", Text.quote job.input),
    ("output", Text.quote job.output),
    ("x_column", Text.quote job.xColumn),
    ("y_column", Text.quote job.yColumn),
    ("x_label", Text.quote job.xLabel),
    ("y_label", Text.quote job.yLabel),
    ("title", summaryOfOption Text.quote job.title)]

def CommandLine.summary (line : CommandLine) : String :=
  let options := line.options
  let side := fun n : UInt32 => toString n.toNat
  summaryOfFields "CliConfig" [
    ("num_keys", decimalText line.labels.numKeys),
    ("num_churn_ops", decimalText line.labels.numChurnOps),
    ("input_dir", summaryOfOption Text.quote options.inputDir),
    ("output_dir", summaryOfOption Text.quote options.outputDir),
    ("config", summaryOfOption Text.quote options.config),
    ("width", summaryOfOption side options.width),
    ("height", summaryOfOption side options.height),
    ("all_series", summaryOfSwitch options.allSeries),
    ("dry_run", summaryOfSwitch options.dryRun),
    ("monitor", summaryOfSwitch options.monitor),
    ("log_json", summaryOfSwitch options.logJson),
    ("verbose", summaryOfSwitch options.verbose),
    ("charts", summaryOfList ChartJob.summary line.settings.charts)]

end ThroughputPlot
