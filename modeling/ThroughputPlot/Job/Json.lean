import ThroughputPlot.Job.Fields
import ThroughputPlot.Json.Reader
import ThroughputPlot.Json.Writer

/-!
# Jobs in JSON

A job is written as an object with all its fields in order.  It is read from an object
in which no field of a job occurs twice and other members are ignored, or from an array
of all its parts.
-/

namespace ThroughputPlot.ChartJob

def toJson (job : ChartJob) : Json :=
  .record [
    ("name", .text job.name),
    ("input", .text job.input),
    ("output", .text job.output),
    ("x_column", .text job.xColumn),
    ("y_column", .text job.yColumn),
    ("x_label", .text job.xLabel),
    ("y_label", .text job.yLabel),
    ("title", .optional .text job.title)]

/-- What the value of a member says; null stands for a title that is left out. -/
def fieldOfJson (isTitle : Bool) : Json → Field
  | .string (some s) => .text s
  | .null => if isTitle then .absent else .malformed
  | _ => .malformed

def fieldOfMembers (members : List (Option String × Json)) (name : String) : Field :=
  match members.filter (·.1 = some name) with
  | [] => .absent
  | [(_, value)] => fieldOfJson (name = "title") value
  | _ => .malformed

def ofJson? : Json → Option ChartJob
  | .object members =>
    if members.all (·.1.isSome) then ofFields? (fieldOfMembers members) else none
  | .array items =>
    ofParts? (items.mapIdx fun place value => fieldOfJson (place = 7) value)
  | _ => none

def readJson? (text : String) : Option ChartJob := (Json.read? text.toList).bind ofJson?

end ThroughputPlot.ChartJob
