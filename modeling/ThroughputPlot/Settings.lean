import ThroughputPlot.Job

/-!
# Settings

Settings are what a run needs to know, wherever it was configured.
-/

namespace ThroughputPlot

/-- The width of an image when none is given. -/
def defaultWidth : UInt32 := 640

/-- The height of an image when none is given. -/
def defaultHeight : UInt32 := 480

/-- The directory for inputs or outputs when none is given. -/
def defaultDirectory : String := "."

structure Settings where
  inputDir : String
  outputDir : String
  width : UInt32
  height : UInt32
  allSeries : Bool
  charts : List ChartJob
deriving DecidableEq

end ThroughputPlot
