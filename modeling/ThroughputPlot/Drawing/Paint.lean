import ThroughputPlot.Drawing

/-!
# Painting a drawing

The chart is painted on white: a black frame around the plot, a line for each series,
and with several series a legend of one short line each.  Room is left for titles and
numbers, which are not painted.
-/

namespace ThroughputPlot

namespace Drawing

/-- A pixel as it is counted on a canvas; there is none before the first. -/
def onCanvas (pixel : Int32 × Int32) : Nat × Nat :=
  (pixel.1.toInt.toNat, pixel.2.toInt.toNat)

def frame (plot : Plot) : List (Nat × Nat) :=
  [(plot.left, plot.top), (plot.right, plot.top), (plot.right, plot.bottom),
    (plot.left, plot.bottom), (plot.left, plot.top)].map onCanvas

def legendLine (plot : Plot) (index : Nat) : List (Nat × Nat) :=
  let (column, row) := onCanvas (plot.left, plot.top)
  [(column + 20, row + 20 + index * 16), (column + 40, row + 20 + index * 16)]

def seriesColour (index : Nat) : Colour := (palette[paletteIndex index]?).getD (0, 0, 0)

/-- Paints one series and, if there is a legend, its line there. -/
def paintSeries (drawing : Drawing) (canvas : Canvas) (item : Series × Nat) : Canvas :=
  let colour := seriesColour item.2
  let painted := canvas.path colour ((drawing.pixels item.1).map onCanvas)
  if drawing.chart.hasLegend then painted.path colour (legendLine drawing.plot item.2)
  else painted

def paint (drawing : Drawing) : Canvas :=
  let blank := Canvas.filled drawing.width.toNat drawing.height.toNat (255, 255, 255)
  let framed := blank.path (0, 0, 0) (frame drawing.plot)
  drawing.chart.series.zipIdx.foldl drawing.paintSeries framed

end Drawing

end ThroughputPlot
