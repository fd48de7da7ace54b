import ThroughputPlot.Axis
import ThroughputPlot.Job
import ThroughputPlot.Label
import ThroughputPlot.Table

/-!
# Charts

A chart is built from a table by a job.  It has one series for the job's own pair of
columns and, on request, one for each further numbered pair.  Only points with two
finite coordinates are drawn.
-/

namespace ThroughputPlot

structure Series where
  name : String
  points : List (Binary64 × Binary64)
deriving DecidableEq

structure Chart where
  title : Option String
  xLabel : String
  yLabel : String
  series : List Series
  xRange : AxisRange
  yRange : AxisRange
deriving DecidableEq

def isFinitePoint (point : Binary64 × Binary64) : Bool :=
  point.1.isFinite && point.2.isFinite

def columnPairs (job : ChartJob) (table : Table) (allSeries : Bool) : List (String × String) :=
  let own := (job.xColumn, job.yColumn)
  let others := table.seriesIndices.map fun k => (xColumnName k, yColumnName k)
  own :: (if allSeries then others.filter (· ≠ own) else [])

/-- The series of a pair of columns, with a warning when points are left out. -/
def loadSeries (table : Table) (columns : String × String) : Report Series := do
  let xs ← Report.ofExcept (table.column columns.1)
  let ys ← Report.ofExcept (table.column columns.2)
  let points := (xs.zip ys).filter isFinitePoint
  let dropped := table.size - points.length
  if 0 < dropped then
    Report.log .warn .chart
      s!"⚠️ {table.source}: dropped {dropped} non-finite points from {columns.1}/{columns.2}"
  pure ⟨columns.2, points⟩

def checkPlottable (table : Table) (axis : String) (range : AxisRange) : Report Unit :=
  if range.isPlottable then pure () else Report.fail (.unplottableRange table.source axis)

namespace Chart

def pointCount (chart : Chart) : Nat := (chart.series.flatMap Series.points).length

def hasLegend (chart : Chart) : Bool := 1 < chart.series.length

def build (job : ChartJob) (table : Table) (labels : LabelValues) (allSeries : Bool) :
    Report Chart := do
  let series ← (columnPairs job table allSeries).mapM (loadSeries table)
  let points := series.flatMap (·.points)
  let xRange := Axis.range (points.map (·.1))
  let yRange := Axis.range (points.map (·.2))
  checkPlottable table "x" xRange
  checkPlottable table "y" yRange
  pure {
    title := job.title.map labels.apply
    xLabel := labels.apply job.xLabel
    yLabel := labels.apply job.yLabel
    series := series
    xRange := xRange
    yRange := yRange
  }

end Chart

end ThroughputPlot
