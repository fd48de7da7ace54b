import ThroughputPlot.Drawing.Paint
import ThroughputPlot.Drawing.Png
import ThroughputPlot.Session

/-!
# The program

The program reads its command line, runs a session on the files of the machine, and
writes what the session leaves behind.
-/

namespace ThroughputPlot.Program

def fault : IO.Error → IoFault
  | .noFileOrDirectory .. => .notFound
  | .inappropriateType _ 20 _ => .notADirectory
  | .inappropriateType _ 21 _ => .isADirectory
  | .alreadyExists .. => .exists
  | e => .other (toString e)

def attempt {α : Type} (action : IO α) : IO (Except IoFault α) := do
  match ← action.toBaseIO with
  | .ok a => return .ok a
  | .error e => return .error (fault e)

def readFile (path : String) : IO (Except IoFault Bytes) :=
  attempt do
    let content ← IO.FS.readBinFile path
    return content.toList

def draw (drawing : Drawing) (path : String) : IO (Report Unit) := do
  if (drawing.format? path).isSome then
    match ← attempt (IO.FS.writeBinFile path (Png.encode drawing.paint)) with
    | .ok _ => return drawing.report path
    | .error fault => return Report.fail (.rendering fault.message)
  else return Report.fail (.rendering "no image of this size and format")

def diagnosis : Config.Diagnosis := fun _ => "the text is no configuration"

def workspace : Workspace IO where
  readFile := readFile
  makeDirectories path := attempt (IO.FS.createDirAll path)
  draw := draw

def referencedNames (line : CommandLine) : IO (List String) := do
  match line.options.config with
  | none => return []
  | some path =>
    match ← readFile path with
    | .ok content => return Environment.references (Utf8.decodeLossy content)
    | .error _ => return []

def readEnvironment (line : CommandLine) : IO Environment := do
  let names := Log.Filter.variableName :: (← referencedNames line)
  names.filterMapM fun name => do
    return (← IO.getEnv name).map fun value => (name, value)

def entryLine (isJson : Bool) (entry : Log.Entry) : String :=
  if isJson then
    (Json.record [
      ("level", .text entry.level.name),
      ("fields", .record [("message", .text entry.message)])]).compact
  else entry.level.name ++ " " ++ entry.message

def usage : List String := [
  "Usage: rhm-plot [OPTIONS] <NUM_KEYS> <NUM_CHURN_OPS>",
  "",
  "Options:",
  "      --input-dir <DIR>    directory of the tables",
  "      --output-dir <DIR>   directory of the images",
  "  -c, --config <FILE>      configuration file",
  "      --width <PIXELS>     width of the images",
  "      --height <PIXELS>    height of the images",
  "      --all-series         draw every numbered pair of columns",
  "      --dry-run            print what would be drawn",
  "      --monitor            sample the use of processor and memory",
  "      --log-json           write log entries as JSON",
  "  -v, --verbose            write more log entries",
  "  -h, --help               print this text"]

def run (line : CommandLine) : IO UInt32 := do
  let environment ← readEnvironment line
  let outcome ← Session.run workspace diagnosis environment line
  for entry in outcome.shownEntries environment line do
    IO.eprintln (entryLine line.options.logJson entry)
  for text in outcome.output do
    IO.println text
  for text in outcome.complaint do
    IO.eprintln text
  return outcome.exitCode

end ThroughputPlot.Program

def main (arguments : List String) : IO UInt32 := do
  match ThroughputPlot.CommandLine.read arguments with
  | .ok line => ThroughputPlot.Program.run line
  | .error .help =>
    ThroughputPlot.Program.usage.forM IO.println
    return ThroughputPlot.UsageError.help.exitCode
  | .error e =>
    ThroughputPlot.Program.usage.forM IO.eprintln
    return e.exitCode
