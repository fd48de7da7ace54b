import ThroughputPlot.Table
import ThroughputPlot.Text.Blank

/-!
# Reading a table

Each line that is not blank is a record of words, and the first record names the
columns.  A row with too few cells is filled up with `nan` and warned about; the first
row with too many ends the reading.
-/

namespace ThroughputPlot

/-- The records of a text, each a list of words. -/
def wordRecords (text : List Char) : List (List (List Char)) :=
  ((Text.lines text).map Text.words).filter (!·.isEmpty)

/--
Drops one byte order mark from the front of the first record.  A record that was
nothing but the mark is then blank and goes too; otherwise the rest of its first word,
even if empty, stays the first word.
-/
def dropMark : List (List (List Char)) → List (List (List Char))
  | (('\uFEFF' :: word) :: fields) :: records =>
    if word.isEmpty && fields.isEmpty then records else (word :: fields) :: records
  | records => records

/-- The records of a text without its byte order mark. -/
def textRecords (text : List Char) : List (List String) :=
  (dropMark (wordRecords text)).map (·.map String.ofList)

/-- Brings rows to a common width; `row` is the number of the first of them. -/
def fillRows (source : String) (width : Nat) :
    Nat → List (List String) → Report (List (List String))
  | _, [] => pure []
  | row, cells :: rest => do
    let found := cells.length
    if width < found then Report.fail (.extraFields source row width found)
    if found < width then
      Report.log .warn .table
        s!"⚠️ {source}: row {row} has {found} of {width} fields, missing values read as nan"
    let rows ← fillRows source width (row + 1) rest
    pure ((cells ++ List.replicate (width - found) "nan") :: rows)

namespace Table

def read (source : String) (text : List Char) : Report Table :=
  let records := textRecords text
  let headers := records.headD []
  do
    let rows ← fillRows source headers.length 1 records.tail
    Report.log .debug .table
      s!"Parsed {source}: {headers.length} columns, {rows.length} rows"
    pure ⟨source, headers, rows⟩

end Table

end ThroughputPlot
