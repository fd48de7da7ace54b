import ThroughputPlot.Binary64.Literal

/-!
# Axis ranges

An axis covers the finite values drawn on it and a margin of a twentieth of their span
on either side.  A single value gets a twentieth of its size, and zero a margin of
one.  Without values the axis runs from zero to one.
-/

namespace ThroughputPlot

structure AxisRange where
  start : Binary64
  stop : Binary64
deriving DecidableEq

namespace Axis

/-- The part of the span, or of a single value, that is left free on either side. -/
def margin : Binary64 := .ofDecimal false 5 (-2)

def widen (extent : Option (Binary64 × Binary64)) (x : Binary64) :
    Option (Binary64 × Binary64) :=
  match extent with
  | none => some (x, x)
  | some (lo, hi) => some (lo.min x, hi.max x)

/-- The least and the greatest of the finite values, if there are any. -/
def extent (values : List Binary64) : Option (Binary64 × Binary64) :=
  (values.filter Binary64.isFinite).foldl widen none

def padding (lo hi : Binary64) : Binary64 :=
  if lo.same hi then
    if lo.same .zero then .one else lo.abs * margin
  else hi * margin - lo * margin

/-- The range of an axis that shows the given values; both ends are finite. -/
def range (values : List Binary64) : AxisRange :=
  match extent values with
  | none => ⟨.zero, .one⟩
  | some (lo, hi) =>
    let pad := padding lo hi
    ⟨(lo - pad).max .least, (hi + pad).min .greatest⟩

end Axis

/-- Whether the distance between the ends is finite. -/
def AxisRange.isPlottable (range : AxisRange) : Bool := (range.stop - range.start).isFinite

end ThroughputPlot
