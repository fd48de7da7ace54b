import ThroughputPlot.Text.Replace

/-!
# Labels

A label is a template in which two placeholders stand for the numbers given on the
command line.
-/

namespace ThroughputPlot

structure LabelValues where
  numKeys : Int64
  numChurnOps : Int64
deriving DecidableEq

def keysPlaceholder : String := "\x7bnum_keys\x7d"

def churnOpsPlaceholder : String := "\x7bnum_churn_ops\x7d"

/-- The decimal digits of a number, after a minus sign if it is negative. -/
def decimalText (n : Int64) : String := toString n.toInt

namespace LabelValues

def apply (values : LabelValues) (template : String) : String :=
  let withKeys :=
    Text.replaceAll keysPlaceholder.toList (decimalText values.numKeys).toList template.toList
  String.ofList
    (Text.replaceAll churnOpsPlaceholder.toList (decimalText values.numChurnOps).toList withKeys)

end LabelValues

end ThroughputPlot
