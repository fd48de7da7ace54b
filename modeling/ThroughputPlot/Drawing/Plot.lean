import ThroughputPlot.Axis
import ThroughputPlot.Binary64.Whole

/-!
# The plot in an image

The plot is the part of an image inside the margins, the room for the axes and the room
for a title.  A point of a chart has a pixel there: its place on each axis is scaled to
the pixels of the plot, and a point beyond an axis is moved to the edge of the plot.
Pixels are counted in 32-bit integers from the upper left.
-/

namespace ThroughputPlot

def outerMargin : Int32 := 20

def leftRoom : Int32 := 90

def bottomRoom : Int32 := 50

def titleRoom : Int32 := 29

/-- The edges of a plot; the right and the lower one lie just outside it. -/
structure Plot where
  left : Int32
  top : Int32
  right : Int32
  bottom : Int32
deriving DecidableEq

/-- The distance that is added before a place is rounded to a pixel. -/
def pixelSlack : Binary64 := .ofDecimal false 1 (-3)

/-- The pixel at which a number lies on an axis that runs from one pixel to another. -/
def AxisRange.pixel (range : AxisRange) (first last : Int32) (x : Binary64) : Int32 :=
  let length := last - first
  let part := (x - range.start) / (range.stop - range.start)
  let distance := .ofInt32 length * part
  if range.start.same range.stop then length / 2
  else if length = 0 then last
  else if part = .infinite false then last
  else if part = .infinite true then first
  else if 0 < length then first + (distance + pixelSlack).floorInt32
  else first + (distance - pixelSlack).ceilInt32

def clampBetween (low high n : Int32) : Int32 :=
  let bounded := if high < n then high else n
  if bounded < low then low else bounded

namespace Plot

def inImage (width height : UInt32) (hasTitle : Bool) : Plot where
  left := outerMargin + leftRoom
  top := if hasTitle then outerMargin + titleRoom else outerMargin
  right := width.toInt32 - outerMargin
  bottom := height.toInt32 - outerMargin - bottomRoom

/-- The pixel of a point, by its column and its row. -/
def pixel (plot : Plot) (xRange yRange : AxisRange) (point : Binary64 × Binary64) :
    Int32 × Int32 :=
  (clampBetween plot.left plot.right (xRange.pixel plot.left (plot.right - 1) point.1),
    clampBetween plot.top plot.bottom (yRange.pixel (plot.bottom - 1) plot.top point.2))

end Plot

end ThroughputPlot
