import ThroughputPlot.Settings

/-!
# Configuration

A configuration file has a section of paths, a section on images and a list of charts.
Either section and any of its fields may be missing.  What the command line says comes
before what the file says, and the file before the defaults.
-/

namespace ThroughputPlot

structure PathSection where
  inputDir : Option String
  outputDir : Option String
deriving DecidableEq

structure ImageSection where
  width : Option UInt32
  height : Option UInt32
  allSeries : Option Bool
deriving DecidableEq

structure Config where
  paths : Option PathSection
  image : Option ImageSection
  charts : List ChartJob
deriving DecidableEq

structure Overrides where
  inputDir : Option String
  outputDir : Option String
  width : Option UInt32
  height : Option UInt32
  allSeries : Bool
deriving DecidableEq

def PathSection.empty : PathSection := ⟨none, none⟩

def ImageSection.empty : ImageSection := ⟨none, none, none⟩

def PathSection.override (o : Overrides) (given : PathSection) : PathSection where
  inputDir := o.inputDir.or given.inputDir
  outputDir := o.outputDir.or given.outputDir

def ImageSection.override (o : Overrides) (given : ImageSection) : ImageSection where
  width := o.width.or given.width
  height := o.height.or given.height
  allSeries := if o.allSeries then some true else given.allSeries

namespace Config

/-- Puts overrides before a configuration; afterwards it has both sections. -/
def override (o : Overrides) (config : Config) : Config :=
  { config with
    paths := some ((config.paths.getD .empty).override o)
    image := some ((config.image.getD .empty).override o) }

def settings (config : Config) : Settings :=
  let paths := config.paths.getD .empty
  let image := config.image.getD .empty
  {
    inputDir := paths.inputDir.getD defaultDirectory
    outputDir := paths.outputDir.getD defaultDirectory
    width := image.width.getD defaultWidth
    height := image.height.getD defaultHeight
    allSeries := image.allSeries.getD false
    charts := config.charts
  }

end Config

/-- Overrides that put the second before the first. -/
def Overrides.andThen (first second : Overrides) : Overrides where
  inputDir := second.inputDir.or first.inputDir
  outputDir := second.outputDir.or first.outputDir
  width := second.width.or first.width
  height := second.height.or first.height
  allSeries := first.allSeries || second.allSeries

end ThroughputPlot
