import ThroughputPlot.Config
import ThroughputPlot.Environment
import ThroughputPlot.Job.Fields
import ThroughputPlot.Toml.Document
import ThroughputPlot.Error

/-!
# Reading a configuration

References to the environment are put in first, then the text is read as TOML, and the
document becomes a configuration.  A section or a job is a table, in which keys with no
meaning here are passed over, or an array of all its fields in order, in which further
items are passed over.  Of a text that is no configuration a diagnosis is given, which is
left open.
-/

namespace ThroughputPlot

namespace Toml

def text? : Toml → Option String
  | .string text => some text
  | _ => none

def size? : Toml → Option UInt32
  | .integer (some value) =>
    if 0 ≤ value && value < UInt32.size then some (UInt32.ofNat value.toNat) else none
  | _ => none

def switch? : Toml → Option Bool
  | .boolean value => some value
  | _ => none

def field : Toml → Field
  | .string text => .text text
  | _ => .malformed

def optional {α : Type} (read : Toml → Option α) : Option Toml → Option (Option α)
  | none => some none
  | some value => (read value).map some

/-- Whether all entries other than the known ones can be passed over. -/
def isRestReadable (known : List String) (entries : Entries) : Bool :=
  entriesReadable (entries.filter fun (key, _) => !known.contains key)

end Toml

open Toml (Entries isRestReadable optional find?)

def PathSection.ofToml? : Toml → Option PathSection
  | .table _ entries =>
    if isRestReadable ["input_dir", "output_dir"] entries then do
      let inputDir ← optional Toml.text? (find? "input_dir" entries)
      let outputDir ← optional Toml.text? (find? "output_dir" entries)
      some { inputDir, outputDir }
    else none
  | .array (input :: output :: _) => do
    let inputDir ← input.text?
    let outputDir ← output.text?
    some ⟨some inputDir, some outputDir⟩
  | .moment => some .empty
  | _ => none

def ImageSection.ofToml? : Toml → Option ImageSection
  | .table _ entries =>
    if isRestReadable ["width", "height", "all_series"] entries then do
      let width ← optional Toml.size? (find? "width" entries)
      let height ← optional Toml.size? (find? "height" entries)
      let allSeries ← optional Toml.switch? (find? "all_series" entries)
      some { width, height, allSeries }
    else none
  | .array (first :: second :: third :: _) => do
    let width ← first.size?
    let height ← second.size?
    let allSeries ← third.switch?
    some ⟨some width, some height, some allSeries⟩
  | .moment => some .empty
  | _ => none

namespace ChartJob

def fieldOfEntries (entries : Entries) (name : String) : Field :=
  match find? name entries with
  | none => .absent
  | some value => value.field

def ofEntries? (entries : Entries) : Option ChartJob :=
  if isRestReadable fieldNames entries then ofFields? (fieldOfEntries entries) else none

def ofToml? : Toml → Option ChartJob
  | .table _ entries => ofEntries? entries
  | .array items => ofParts? ((items.take fieldNames.length).map Toml.field)
  | _ => none

def listOfToml? : Toml → Option (List ChartJob)
  | .array items => items.mapM ofToml?
  | .tables items => items.mapM ofEntries?
  | _ => none

end ChartJob

namespace Config

def ofEntries? (entries : Entries) : Option Config :=
  if isRestReadable ["paths", "render", "charts"] entries then do
    let paths ← optional PathSection.ofToml? (find? "paths" entries)
    let image ← optional ImageSection.ofToml? (find? "render" entries)
    let charts ← optional ChartJob.listOfToml? (find? "charts" entries)
    some { paths, image, charts := charts.getD [] }
  else none

/-- What is said about a text that is no configuration.  No rule here gives the words. -/
abbrev Diagnosis := List Char → String

/-- Why a text is no configuration. -/
def malformed (details : String) : PlotError :=
  .invalidConfiguration "toml_parsing" ("TOML parsing error: " ++ details)

def read (diagnosis : Diagnosis) (environment : Environment) (text : List Char) :
    Except PlotError Config :=
  let expanded := Environment.expand environment.get? text
  match (Toml.read? expanded).bind ofEntries? with
  | some config => .ok config
  | none => .error (malformed (diagnosis expanded))

end Config

end ThroughputPlot
