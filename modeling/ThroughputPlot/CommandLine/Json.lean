import ThroughputPlot.CommandLine
import ThroughputPlot.Json

/-!
# The command line in JSON

What a command line says is written as an object; an option that is not given is null.
-/

namespace ThroughputPlot.CommandLine

def toJson (line : CommandLine) : Json :=
  let options := line.options
  .record [
    ("num_keys", .integer line.labels.numKeys.toInt),
    ("num_churn_ops", .integer line.labels.numChurnOps.toInt),
    ("input_dir", .optional .text options.inputDir),
    ("output_dir", .optional .text options.outputDir),
    ("config", .optional .text options.config),
    ("width", .optional (.integer ·.toNat) options.width),
    ("height", .optional (.integer ·.toNat) options.height),
    ("all_series", .bool options.allSeries),
    ("dry_run", .bool options.dryRun),
    ("monitor", .bool options.monitor),
    ("log_json", .bool options.logJson),
    ("verbose", .bool options.verbose)]

end ThroughputPlot.CommandLine
