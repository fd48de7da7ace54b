import ThroughputPlot.Binary64.Basic

/-!
# Whole numbers and binary64

A 32-bit integer is a binary64 number exactly.  The other way a number is rounded down or
up, and what lies outside the 32-bit integers becomes the nearest of them; not-a-number
becomes zero.
-/

namespace ThroughputPlot.Binary64

def ofInt32 (n : Int32) : Binary64 := ofUnits false (n.toInt * unitsOfOne)

def clampInt32 (n : Int) : Int32 :=
  if n < Int32.minValue.toInt then Int32.minValue
  else if Int32.maxValue.toInt < n then Int32.maxValue
  else Int32.ofInt n

/-- The 32-bit integer that a number becomes when a quotient is rounded as given. -/
def roundInt32 (round : Int → Int → Int) : Binary64 → Int32
  | .nan => 0
  | .infinite s => if s then Int32.minValue else Int32.maxValue
  | .finite s m => clampInt32 (round (withSign s m.units) unitsOfOne)

def floorInt32 (x : Binary64) : Int32 := x.roundInt32 Int.fdiv

def ceilInt32 (x : Binary64) : Int32 := x.roundInt32 fun a b => -Int.fdiv (-a) b

end ThroughputPlot.Binary64
