import ThroughputPlot.Chart
import ThroughputPlot.Drawing.Canvas
import ThroughputPlot.Drawing.Plot
import ThroughputPlot.Path

/-!
# Drawings

A drawing is a chart on an area of pixels.  Its series take the colours of a palette in
turn.  A single series shows its colour when its points do not share one pixel; several
series are named in a legend, where each colour shows.  An image file keeps the colours
exactly or not, as its format has it.
-/

namespace ThroughputPlot

structure Drawing where
  chart : Chart
  width : UInt32
  height : UInt32
deriving DecidableEq

def palette : List Colour := [
  (0x1F, 0x77, 0xB4),
  (0xFF, 0x7F, 0x0E),
  (0x2C, 0xA0, 0x2C),
  (0xD6, 0x27, 0x28),
  (0x94, 0x67, 0xBD),
  (0x8C, 0x56, 0x4B),
  (0xE3, 0x77, 0xC2),
  (0x7F, 0x7F, 0x7F),
  (0xBC, 0xBD, 0x22),
  (0x17, 0xBE, 0xCF)]

def paletteIndex (series : Nat) : Nat := series % palette.length

inductive ImageFormat where
  | png
  | bmp
  | jpeg
deriving DecidableEq

namespace ImageFormat

def extensions : List (String × ImageFormat) :=
  [("png", .png), ("bmp", .bmp), ("jpg", .jpeg), ("jpeg", .jpeg)]

/-- The format for which a file name asks, by its extension in any letter case. -/
def ofPath? (path : String) : Option ImageFormat :=
  (Path.extension? path).bind fun extension =>
    extensions.lookup (String.ofList (extension.map Char.toLower))

def keepsColours (format : ImageFormat) : Bool := format ≠ .jpeg

/-- The longest side that a format can say, if it cannot say every length. -/
def maxSide? (format : ImageFormat) : Option UInt32 :=
  if format = .jpeg then some 65535 else none

end ImageFormat

namespace Drawing

def hasArea (drawing : Drawing) : Bool := drawing.width ≠ 0 && drawing.height ≠ 0

/-- Whether no side of a drawing is longer than a format can say. -/
def fits (drawing : Drawing) (format : ImageFormat) : Bool :=
  match format.maxSide? with
  | some side => drawing.width ≤ side && drawing.height ≤ side
  | none => true

def format? (drawing : Drawing) (path : String) : Option ImageFormat :=
  if drawing.hasArea then (ImageFormat.ofPath? path).filter drawing.fits else none

/-- The least side of a drawing in which the margins leave room enough to tell colours. -/
def minColouredSide : UInt32 := 240

/-- The place of a grey in the palette, which the edges of letters and lines have as well. -/
def greyIndex : Nat := 7

def plot (drawing : Drawing) : Plot :=
  .inImage drawing.width drawing.height drawing.chart.title.isSome

def pixels (drawing : Drawing) (series : Series) : List (Int32 × Int32) :=
  series.points.map (drawing.plot.pixel drawing.chart.xRange drawing.chart.yRange)

/-- Whether the line of a series has a length. -/
def hasLine (drawing : Drawing) (series : Series) : Bool :=
  let pixels := drawing.pixels series
  pixels.any fun pixel => pixels.head? ≠ some pixel

def drawnColours (drawing : Drawing) : List Nat :=
  if drawing.chart.hasLegend then (List.range drawing.chart.series.length).map paletteIndex
  else if drawing.chart.series.any drawing.hasLine then [0]
  else []

/--
The places in the palette, in increasing order, of the colours that tell series apart
in a file of the given format; `none` if the drawing is too small to tell.
-/
def colours? (drawing : Drawing) (format : ImageFormat) : Option (List Nat) :=
  if drawing.width < minColouredSide || drawing.height < minColouredSide then none
  else if !format.keepsColours then some []
  else
    let drawn := drawing.drawnColours
    some ((List.range palette.length).filter fun k => k ≠ greyIndex && drawn.contains k)

def report (drawing : Drawing) (path : String) : Report Unit :=
  let series := drawing.chart.series.length
  let points := drawing.chart.pointCount
  .log .debug .image s!"Rendered {series} series ({points} points) to {path}"

end Drawing

end ThroughputPlot
