import ThroughputPlot.Binary64.Layout
import ThroughputPlot.Error
import ThroughputPlot.Path
import ThroughputPlot.Settings
import ThroughputPlot.Text.Blank

/-!
# Validation

Settings are checked in a fixed order and the first fault is reported: directories,
image size, that there are charts, each chart by itself, and last that names and outputs
are unique.
-/

namespace ThroughputPlot

abbrev Check := Except PlotError Unit

namespace Check

/-- Fails with the reason unless the condition holds. -/
def require (condition : Bool) (field value reason : String) : Check :=
  if condition then .ok () else .error (.invalidValue field value reason)

def path (field value : String) : Check := do
  require (!value.isEmpty) field value "Path cannot be empty"
  require (!value.toList.contains '\x00') field value "Path contains null bytes"

/-- A letter of the basic Latin alphabet in lower case, any other character as it is. -/
def lowerCase (text : List Char) : String := String.ofList (text.map Char.toLower)

/-- Checks that a file has one of the allowed extensions, which are in lower case. -/
def fileExtension (field value : String) (allowed : List String) : Check :=
  match Path.extension? value with
  | none => .error (.invalidValue field value "File has no extension or invalid filename")
  | some extension =>
    let given := String.ofList extension
    let list := ", ".intercalate allowed
    require (allowed.contains (lowerCase extension)) field value
      s!"Unsupported file extension: {given}. Allowed extensions: {list}"

def nonBlank (field value : String) : Check :=
  require (!Text.isBlankText value) field value "Value cannot be empty or whitespace-only"

/-- Checks that a value is within bounds, given how it and the bounds are written. -/
def within (inside : Bool) (field value low high : String) : Check :=
  require inside field value s!"Value must be between {low} and {high}"

def integerWithin (field : String) (value low high : Int) : Check :=
  within (low ≤ value && value ≤ high) field (toString value) (toString low) (toString high)

def numberWithin (field : String) (value low high : Binary64) : Check :=
  within (!value.less low && !high.less value) field
    (messageNumber.write value) (messageNumber.write low) (messageNumber.write high)

/-- The first value that equals one before it, given those already seen. -/
def firstRepeated? (seen : List String) : List String → Option String
  | [] => none
  | value :: rest =>
    if seen.contains value then some value else firstRepeated? (value :: seen) rest

/-- Checks that no value occurs twice. -/
def unique (field : String) (values : List String) : Check :=
  match firstRepeated? [] values with
  | none => .ok ()
  | some value => .error (.invalidValue field value "Value must be unique")

def minImageSide : Int := 64

def maxImageSide : Int := 8192

def chart (job : ChartJob) : Check := do
  nonBlank "charts.name" job.name
  path "charts.input" job.input
  path "charts.output" job.output
  fileExtension "charts.output" job.output ["png"]
  nonBlank "charts.x_column" job.xColumn
  nonBlank "charts.y_column" job.yColumn

def eachChart : List ChartJob → Check
  | [] => .ok ()
  | job :: rest => do
    chart job
    eachChart rest

def charts (jobs : List ChartJob) : Check :=
  if jobs.isEmpty then .error (.missingValue "charts")
  else do
    eachChart jobs
    unique "charts.name" (jobs.map (·.name))
    unique "charts.output" (jobs.map (·.output))

end Check

def Settings.validate (settings : Settings) : Check := do
  Check.path "input_dir" settings.inputDir
  Check.path "output_dir" settings.outputDir
  Check.integerWithin "render.width" settings.width.toNat Check.minImageSide Check.maxImageSide
  Check.integerWithin "render.height" settings.height.toNat Check.minImageSide Check.maxImageSide
  Check.charts settings.charts

end ThroughputPlot
