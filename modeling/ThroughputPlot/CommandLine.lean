import ThroughputPlot.Config
import ThroughputPlot.Label

/-!
# The command line

The command line gives two integers, which only labels show, and options.  Without a
configuration file its options and the default charts are the settings of the run.
-/

namespace ThroughputPlot

structure Options where
  inputDir : Option String := none
  outputDir : Option String := none
  config : Option String := none
  width : Option UInt32 := none
  height : Option UInt32 := none
  allSeries : Bool := false
  dryRun : Bool := false
  monitor : Bool := false
  logJson : Bool := false
  verbose : Bool := false
deriving DecidableEq

structure CommandLine where
  labels : LabelValues
  options : Options
deriving DecidableEq

def Options.overrides (options : Options) : Overrides where
  inputDir := options.inputDir
  outputDir := options.outputDir
  width := options.width
  height := options.height
  allSeries := options.allSeries

namespace CommandLine

/-- The settings of a run without a configuration file. -/
def settings (line : CommandLine) : Settings where
  inputDir := line.options.inputDir.getD defaultDirectory
  outputDir := line.options.outputDir.getD defaultDirectory
  width := line.options.width.getD defaultWidth
  height := line.options.height.getD defaultHeight
  allSeries := line.options.allSeries
  charts := ChartJob.defaults

end CommandLine

end ThroughputPlot
