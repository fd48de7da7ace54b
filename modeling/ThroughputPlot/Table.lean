import ThroughputPlot.Report
import ThroughputPlot.Text.Integer

/-!
# Tables

A table has named columns and rows of raw cells.  A cell becomes a number only when
its column is asked for, so stray text in a column that nobody draws does no harm.
-/

namespace ThroughputPlot

/-- A table as it was read, with the name of the file it came from. -/
structure Table where
  source : String
  headers : List String
  rows : List (List String)
deriving DecidableEq

/-- The numbers of a column from the given row on; rows are counted from one. -/
def numbersFrom (file column : String) :
    Nat → List String → Except PlotError (List Binary64)
  | _, [] => .ok []
  | row, cell :: rest =>
    match Binary64.ofLiteral? cell.toList with
    | none => .error (.invalidNumber file column row cell)
    | some x => (numbersFrom file column (row + 1) rest).map (x :: ·)

/-- Puts a number into an increasing list, unless it is there already. -/
def insertIndex (k : UInt32) : List UInt32 → List UInt32
  | [] => [k]
  | first :: rest =>
    if k < first then k :: first :: rest
    else if k = first then first :: rest
    else first :: insertIndex k rest

namespace Table

def size (table : Table) : Nat := table.rows.length

def hasColumn (table : Table) (name : String) : Bool := table.headers.contains name

/-- The cells of a column; a cell that is missing reads as `nan`. -/
def cells (table : Table) (index : Nat) : List String :=
  table.rows.map (·.getD index "nan")

def column (table : Table) (name : String) : Except PlotError (List Binary64) :=
  match table.headers.idxOf? name with
  | none => .error (.missingColumn table.source name table.headers)
  | some index => numbersFrom table.source name 1 (table.cells index)

end Table

def xColumnName (k : UInt32) : String := s!"x_{k.toNat}"

def yColumnName (k : UInt32) : String := s!"y_{k.toNat}"

def xIndex? (header : String) : Option UInt32 :=
  match header.toList with
  | 'x' :: '_' :: digits => Text.uint32? digits
  | _ => none

namespace Table

/-- The numbers, in increasing order, of the x columns that have a y column of their number. -/
def seriesIndices (table : Table) : List UInt32 :=
  (table.headers.filterMap xIndex?).foldr
    (fun k found => if table.hasColumn (yColumnName k) then insertIndex k found else found) []

end Table

end ThroughputPlot
