/-!
# Log entries

An entry has a level, the part of the program that wrote it and a message.
-/

namespace ThroughputPlot.Log

inductive Level where
  | error
  | warn
  | info
  | debug
  | trace
deriving DecidableEq

inductive Scope where
  | process
  | reading
  | table
  | chart
  | run
  | image
deriving DecidableEq

structure Entry where
  level : Level
  scope : Scope
  message : String
deriving DecidableEq

def Level.name : Level → String
  | .error => "ERROR"
  | .warn => "WARN"
  | .info => "INFO"
  | .debug => "DEBUG"
  | .trace => "TRACE"

/-- The verbosity at which entries of a level begin to show. -/
def Level.verbosity : Level → Nat
  | .error => 1
  | .warn => 2
  | .info => 3
  | .debug => 4
  | .trace => 5

def Scope.target : Scope → String
  | .process => "rhm_plot"
  | .reading => "rhm_plot::core::pipeline"
  | .table => "rhm_plot::core::table"
  | .chart => "rhm_plot::core::chart"
  | .run => "rhm_plot::core::engine"
  | .image => "rhm_plot::core::render"

end ThroughputPlot.Log
