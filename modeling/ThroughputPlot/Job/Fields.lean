import ThroughputPlot.Job

/-!
# Jobs as records

A job is read from a record with a field for each of its parts, or from a list of all
its parts in order.  The two columns and the title may be left out of a record.
-/

namespace ThroughputPlot

inductive Field where
  | absent
  | malformed
  | text (value : String)
deriving DecidableEq

namespace Field

def required : Field → Option String
  | .text value => some value
  | _ => none

def withDefault (default : String) : Field → Option String
  | .absent => some default
  | .malformed => none
  | .text value => some value

def optional : Field → Option (Option String)
  | .absent => some none
  | .malformed => none
  | .text value => some (some value)

end Field

namespace ChartJob

/-- The names of the fields of a job, in order. -/
def fieldNames : List String :=
  ["name", "input", "output", "x_column", "y_column", "x_label", "y_label", "title"]

/-- The job of a record, given what the record says about each field. -/
def ofFields? (field : String → Field) : Option ChartJob := do
  let name ← (field "name").required
  let input ← (field "input").required
  let output ← (field "output").required
  let xColumn ← (field "x_column").withDefault defaultXColumn
  let yColumn ← (field "y_column").withDefault defaultYColumn
  let xLabel ← (field "x_label").required
  let yLabel ← (field "y_label").required
  let title ← (field "title").optional
  some { name, input, output, xColumn, yColumn, xLabel, yLabel, title }

/-- The job of a list of all parts in order; only the title may be missing a text. -/
def ofParts? (parts : List Field) : Option ChartJob :=
  match parts with
  | [name, input, output, xColumn, yColumn, xLabel, yLabel, title] => do
    let name ← name.required
    let input ← input.required
    let output ← output.required
    let xColumn ← xColumn.required
    let yColumn ← yColumn.required
    let xLabel ← xLabel.required
    let yLabel ← yLabel.required
    let title ← title.optional
    some { name, input, output, xColumn, yColumn, xLabel, yLabel, title }
  | _ => none

end ChartJob

end ThroughputPlot
