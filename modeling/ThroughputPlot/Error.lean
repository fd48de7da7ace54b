/-!
# Errors

An error is its cause.  The text, the category, the severity, the suggestion and the
message for the user are functions of the cause, and the exit status is a function of
the severity.
-/

namespace ThroughputPlot

inductive IoFault where
  | notFound
  | exists
  | notADirectory
  | isADirectory
  | nameTooLong
  | nulInName
  | notUtf8
  | other (message : String)
deriving DecidableEq

def IoFault.message : IoFault → String
  | .notFound => "No such file or directory (os error 2)"
  | .exists => "File exists (os error 17)"
  | .notADirectory => "Not a directory (os error 20)"
  | .isADirectory => "Is a directory (os error 21)"
  | .nameTooLong => "File name too long (os error 36)"
  | .nulInName => "file name contained an unexpected NUL byte"
  | .notUtf8 => "stream did not contain valid UTF-8"
  | .other message => message

/-- Why a run failed. -/
inductive PlotError where
  | io (fault : IoFault)
  | malformedTable (message : String)
  | serialization (message : String)
  | configuration (message : String)
  | invalidConfiguration (field message : String)
  | invalidValue (field value reason : String)
  | missingValue (field : String)
  | inputNotFound (path : String)
  | missingColumn (file column : String) (available : List String)
  | invalidNumber (file column : String) (row : Nat) (value : String)
  | extraFields (file : String) (row expected found : Nat)
  | unplottableRange (file axis : String)
  | rendering (message : String)
deriving DecidableEq

inductive ErrorCategory where
  | configuration
  | input
  | data
  | rendering
  | system
deriving DecidableEq

inductive ErrorSeverity where
  | medium
  | high
  | critical
deriving DecidableEq

def ErrorCategory.name : ErrorCategory → String
  | .configuration => "Configuration"
  | .input => "Input"
  | .data => "Data"
  | .rendering => "Rendering"
  | .system => "System"

def ErrorSeverity.name : ErrorSeverity → String
  | .medium => "Medium"
  | .high => "High"
  | .critical => "Critical"

def ErrorSeverity.exitCode : ErrorSeverity → UInt32
  | .high => 1
  | .medium => 2
  | .critical => 3

namespace PlotError

def message : PlotError → String
  | .io fault => s!"IO error: {fault.message}"
  | .malformedTable message => s!"Table parsing error: {message}"
  | .serialization message => s!"Serialization error: {message}"
  | .configuration message => s!"Configuration error: {message}"
  | .invalidConfiguration field message =>
    s!"Configuration validation failed for '{field}': {message}"
  | .invalidValue field value reason => s!"Invalid value '{value}' for '{field}': {reason}"
  | .missingValue field => s!"Missing required configuration: {field}"
  | .inputNotFound path => s!"Input file not found: {path}"
  | .missingColumn file column available =>
    let names := ", ".intercalate available
    s!"Column '{column}' not found in {file} (available: {names})"
  | .invalidNumber file column row value =>
    s!"Invalid number '{value}' in {file}, column '{column}', row {row}"
  | .extraFields file row expected found =>
    s!"Row {row} of {file} has {found} fields but the header has {expected}"
  | .unplottableRange file axis =>
    s!"Values in {file} span too wide a range to plot on the {axis} axis"
  | .rendering message => s!"Chart rendering failed: {message}"

def category : PlotError → ErrorCategory
  | .configuration .. | .invalidConfiguration .. | .invalidValue .. | .missingValue .. =>
    .configuration
  | .inputNotFound .. => .input
  | .malformedTable .. | .missingColumn .. | .invalidNumber .. | .extraFields ..
  | .unplottableRange .. => .data
  | .rendering .. => .rendering
  | .io .. | .serialization .. => .system

/-- How grave the error is, which depends on its category alone. -/
def severity (e : PlotError) : ErrorSeverity :=
  match e.category with
  | .configuration => .medium
  | .input | .data => .high
  | .rendering | .system => .critical

def suggestion : PlotError → String
  | .inputNotFound .. =>
    "Run the benchmark first or point --input-dir at the directory holding its output"
  | .missingColumn .. =>
    "The first line of the table must be a header naming the columns, e.g. 'x_0 y_0'"
  | .invalidNumber .. => "Every data field must be a number; check the table for stray text"
  | .malformedTable .. | .extraFields .. =>
    "A row may not have more whitespace-separated fields than the header"
  | .unplottableRange .. => "Check the table for overflowing values near the f64 limits"
  | .configuration .. | .invalidConfiguration .. =>
    "Check the TOML syntax of the configuration file"
  | .invalidValue .. | .missingValue .. => "Fix the reported configuration value and run again"
  | .rendering .. =>
    "Check that the output directory is writable and the image size is reasonable"
  | .io .. => "Check file permissions and available disk space"
  | .serialization .. => "This is a bug; please report it"

def friendlyMessage : PlotError → String
  | .inputNotFound path => s!"Cannot find benchmark results at '{path}'"
  | .missingColumn file column _ => s!"'{file}' has no column named '{column}'"
  | .invalidNumber file _ row value => s!"'{file}' row {row}: '{value}' is not a number"
  | .rendering message => s!"Could not draw the chart: {message}"
  | e => e.message

end PlotError

end ThroughputPlot
