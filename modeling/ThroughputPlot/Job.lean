/-!
# Chart jobs

A job says which table to read, which two columns to draw, how to label the chart and
where to put the image.
-/

namespace ThroughputPlot

structure ChartJob where
  name : String
  input : String
  output : String
  xColumn : String
  yColumn : String
  xLabel : String
  yLabel : String
  title : Option String
deriving DecidableEq

/-- The x column of a job that names none. -/
def defaultXColumn : String := "x_0"

/-- The y column of a job that names none. -/
def defaultYColumn : String := "y_0"

namespace ChartJob

def insert : ChartJob where
  name := "insert"
  input := "rhm-insert.txt"
  output := "plot_insert.png"
  xColumn := defaultXColumn
  yColumn := defaultYColumn
  xLabel := "percent of keys inserted (\x7bnum_keys\x7d)"
  yLabel := "throughput (num inserts per sec)"
  title := none

def churn : ChartJob where
  name := "churn"
  input := "rhm-churn.txt"
  output := "plot_churn.png"
  xColumn := defaultXColumn
  yColumn := defaultYColumn
  xLabel := "percent of churn test(\x7bnum_churn_ops\x7d)"
  yLabel := "throughput (num ops per sec)"
  title := none

/-- The jobs of a run that is not configured otherwise. -/
def defaults : List ChartJob := [insert, churn]

end ChartJob

end ThroughputPlot
