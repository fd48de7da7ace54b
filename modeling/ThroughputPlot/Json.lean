import ThroughputPlot.Text.Items

/-!
# JSON values

A number is kept as it is written, so no digit is lost on the way.  A string is kept as
its text, or as `none` when an escape in it names half of a surrogate pair: such a
string is well formed but has no text.
-/

namespace ThroughputPlot

inductive Json where
  | null
  | bool (value : Bool)
  | number (literal : String)
  | string (text : Option String)
  | array (items : List Json)
  | object (members : List (Option String × Json))

namespace Json

def text (s : String) : Json := .string (some s)

def integer (n : Int) : Json := .number (toString n)

def optional {α : Type} (toJson : α → Json) : Option α → Json
  | none => .null
  | some a => toJson a

def record (members : List (String × Json)) : Json :=
  .object (members.map fun (key, value) => (some key, value))

end Json

end ThroughputPlot
