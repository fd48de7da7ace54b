import ThroughputPlot.Binary64.Literal

/-!
# Integers in text

An integer is decimal digits after an optional sign, within given bounds.  A minus
sign is only for numbers that may be negative.
-/

namespace ThroughputPlot.Text

/-- Reads decimal digits, at least one and nothing else. -/
def natural? (digits : List Char) : Option Nat :=
  if digits.isEmpty || !digits.all Char.isDigit then none
  else some (natOfDigits digits)

def int64? (text : List Char) : Option Int64 :=
  let (negative, digits) := takeSign text
  (natural? digits).bind fun n =>
    let value := Binary64.withSign negative n
    if Int64.minValue.toInt ≤ value && value ≤ Int64.maxValue.toInt then some (Int64.ofInt value)
    else none

/-- Reads an unsigned 32-bit integer, before which a plus sign may stand. -/
def uint32? (text : List Char) : Option UInt32 :=
  let digits := match text with
    | '+' :: rest => rest
    | _ => text
  (natural? digits).bind fun n =>
    if n < UInt32.size then some (UInt32.ofNat n) else none

end ThroughputPlot.Text
