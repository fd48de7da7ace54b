/-!
# Canvases

A canvas is a rectangle of coloured pixels.  Columns are counted from the left and rows
from the top; what lies outside the canvas is not drawn.
-/

namespace ThroughputPlot

/-- A colour by its red, green and blue parts. -/
abbrev Colour := UInt8 × UInt8 × UInt8

/-- A rectangle of coloured pixels, row by row. -/
structure Canvas where
  width : Nat
  height : Nat
  pixels : Array Colour

namespace Canvas

def filled (width height : Nat) (colour : Colour) : Canvas :=
  ⟨width, height, Array.replicate (width * height) colour⟩

def dot (colour : Colour) (canvas : Canvas) (column row : Nat) : Canvas :=
  if column < canvas.width && row < canvas.height then
    { canvas with pixels := canvas.pixels.setIfInBounds (row * canvas.width + column) colour }
  else canvas

/-- Colours a square of four pixels, the given one at its upper left. -/
def spot (colour : Colour) (canvas : Canvas) (column row : Nat) : Canvas :=
  let upper := (canvas.dot colour column row).dot colour (column + 1) row
  (upper.dot colour column (row + 1)).dot colour (column + 1) (row + 1)

/-- The number that lies `step` parts of `steps` on the way from one number to another. -/
def between (start stop step steps : Nat) : Nat :=
  (start * (steps - step) + stop * step + steps / 2) / steps

def line (colour : Colour) (canvas : Canvas) (start stop : Nat × Nat) : Canvas :=
  let columns := (start.1 - stop.1) + (stop.1 - start.1)
  let rows := (start.2 - stop.2) + (stop.2 - start.2)
  let steps := max 1 (max columns rows)
  (List.range (steps + 1)).foldl
    (fun canvas step =>
      canvas.spot colour (between start.1 stop.1 step steps) (between start.2 stop.2 step steps))
    canvas

def path (colour : Colour) : Canvas → List (Nat × Nat) → Canvas
  | canvas, start :: stop :: rest => path colour (canvas.line colour start stop) (stop :: rest)
  | canvas, _ => canvas

end Canvas

end ThroughputPlot
