import ThroughputPlot.Binary64.Layout
import ThroughputPlot.Chart
import ThroughputPlot.Json.Writer

/-!
# Chart plans

A plan says what a run would draw and where, without drawing it.
-/

namespace ThroughputPlot

structure ChartPlan where
  name : String
  input : String
  output : String
  xLabel : String
  yLabel : String
  series : List String
  points : Nat
  xRange : AxisRange
  yRange : AxisRange
deriving DecidableEq

namespace ChartPlan

def ofChart (job : ChartJob) (output : String) (chart : Chart) : ChartPlan where
  name := job.name
  input := job.input
  output := output
  xLabel := chart.xLabel
  yLabel := chart.yLabel
  series := chart.series.map (·.name)
  points := chart.pointCount
  xRange := chart.xRange
  yRange := chart.yRange

end ChartPlan

/-- The JSON value of a number; one that is not finite has none. -/
def Binary64.toJson (x : Binary64) : Json :=
  if x.isFinite then .number (planNumber.write x) else .null

/-- The JSON value of a range: its two ends. -/
def AxisRange.toJson (range : AxisRange) : Json :=
  .array [range.start.toJson, range.stop.toJson]

namespace ChartPlan

def toJson (plan : ChartPlan) : Json :=
  .record [
    ("name", .text plan.name),
    ("input", .text plan.input),
    ("output", .text plan.output),
    ("x_label", .text plan.xLabel),
    ("y_label", .text plan.yLabel),
    ("series", .array (plan.series.map .text)),
    ("points", .integer plan.points),
    ("x_range", plan.xRange.toJson),
    ("y_range", plan.yRange.toJson)]

end ChartPlan

end ThroughputPlot
