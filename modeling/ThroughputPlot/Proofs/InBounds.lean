import ThroughputPlot.Proofs.ChartOutcome
import ThroughputPlot.Proofs.Layout

/-!
# Charts stay within their tables

Reading a table fills short rows up and refuses long ones, so that a table that was read is
rectangular.  Taking cells out of its rows then never goes beyond the end of a row, whichever
column is asked for.  To say so, the building of a chart is written down once more in a form
that stops where a cell is missing or where more would be taken away than is there.
-/

namespace ThroughputPlot

/-! ## Tables that were read are rectangular -/

theorem length_of_mem_fillRows {source : String} {width row : ℕ} {rows filled : List (List String)}
    (hfill : (fillRows source width row rows).result = .ok filled) :
    ∀ cells ∈ filled, cells.length = width := by
  induction rows generalizing row filled with
  | nil =>
      obtain rfl : [] = filled := Except.ok.inj hfill
      simp
  | cons first rest ih =>
      rw [result_fillRows_cons] at hfill
      by_cases hlong : width < first.length
      · rw [if_pos hlong] at hfill
        contradiction
      · rw [if_neg hlong] at hfill
        cases hrest : (fillRows source width (row + 1) rest).result with
        | error e =>
            rw [hrest] at hfill
            contradiction
        | ok others =>
            rw [hrest] at hfill
            obtain rfl := Except.ok.inj hfill
            refine List.forall_mem_cons.mpr ⟨?_, ih hrest⟩
            rw [List.length_rightpad]
            omega

theorem Table.rectangular_of_read {source : String} {text : List Char} {table : Table}
    (hread : (Table.read source text).result = .ok table) : table.Rectangular := by
  cases hrecords : textRecords text with
  | nil =>
      have hempty : (Table.read source text).result = .ok ⟨source, [], []⟩ := by
        simp [Table.read, hrecords, fillRows, Except.map]
      rw [hempty] at hread
      obtain rfl := Except.ok.inj hread
      simp [Table.Rectangular]
  | cons headers rows =>
      rw [result_read_of_textRecords source hrecords] at hread
      cases hfill : (fillRows source headers.length 1 rows).result with
      | error e =>
          rw [hfill] at hread
          contradiction
      | ok filled =>
          rw [hfill] at hread
          obtain rfl := Except.ok.inj hread
          exact length_of_mem_fillRows hfill

/-! ## Counting points -/

theorem Table.length_of_column {table : Table} {name : String} {xs : List Binary64}
    (hcolumn : table.column name = .ok xs) : xs.length = table.size := by
  obtain hname | ⟨index, hindex⟩ := table.not_mem_or_isColumn name
  · rw [column_eq_of_not_mem hname] at hcolumn
    contradiction
  · rw [column_eq_of_isColumn hindex, numbersFrom_eq_ok_iff] at hcolumn
    have hlength := congrArg List.length hcolumn
    simpa [cells, size] using hlength.symm

theorem length_points_le {table : Table} {name : String} {xs ys : List Binary64}
    (hcolumn : table.column name = .ok xs) :
    ((xs.zip ys).filter isFinitePoint).length ≤ table.size := by
  calc
    ((xs.zip ys).filter isFinitePoint).length ≤ (xs.zip ys).length := List.length_filter_le _ _
    _ ≤ xs.length := by
      rw [List.length_zip]
      exact Nat.min_le_left _ _
    _ = table.size := Table.length_of_column hcolumn

theorem length_points_of_loadSeries {table : Table} {columns : String × String} {series : Series}
    (hload : (loadSeries table columns).result = .ok series) :
    series.points.length ≤ table.size := by
  obtain ⟨xs, ys, hxs, _, rfl⟩ := loadSeries_eq_ok_iff.mp hload
  exact length_points_le hxs

/-! ## Building with checks -/

/-- A computation that gives `none` where it leaves the bounds of its data. -/
abbrev Checked := OptionT (Except PlotError)

namespace Checked

variable {α β : Type}

def ofExcept (result : Except PlotError α) : Checked α := OptionT.lift result

def cell (cells : List String) (index : ℕ) : Checked String := OptionT.mk (.ok cells[index]?)

def difference (whole part : ℕ) : Checked ℕ :=
  OptionT.mk (.ok (if part ≤ whole then some (whole - part) else none))

def numbersFrom (file column : String) (index : ℕ) :
    ℕ → List (List String) → Checked (List Binary64)
  | _, [] => pure []
  | row, cells :: rest => do
      let raw ← cell cells index
      match Binary64.ofLiteral? raw.toList with
      | none => ofExcept (.error (.invalidNumber file column row raw))
      | some x =>
        let xs ← numbersFrom file column index (row + 1) rest
        pure (x :: xs)

def column (table : Table) (name : String) : Checked (List Binary64) :=
  match table.headers.idxOf? name with
  | none => ofExcept (.error (.missingColumn table.source name table.headers))
  | some index => numbersFrom table.source name index 1 table.rows

def loadSeries (table : Table) (columns : String × String) : Checked Series := do
  let xs ← column table columns.1
  let ys ← column table columns.2
  let points := (xs.zip ys).filter isFinitePoint
  let _ ← difference table.size points.length
  pure ⟨columns.2, points⟩

def build (job : ChartJob) (table : Table) (labels : LabelValues) (allSeries : Bool) :
    Checked Chart := do
  let series ← (columnPairs job table allSeries).mapM (loadSeries table)
  let chart := Chart.ofSeries job labels series
  ofExcept (checkPlottable table "x" chart.xRange).result
  ofExcept (checkPlottable table "y" chart.yRange).result
  pure chart

/-- The chart of a job whose input holds the given text. -/
def chart (source : String) (text : List Char) (job : ChartJob) (labels : LabelValues)
    (allSeries : Bool) : Checked Chart := do
  let table ← ofExcept (Table.read source text).result
  build job table labels allSeries

/-! ## The checks never stop the building -/

theorem ofExcept_bind {result : Except PlotError α} {next : α → Checked β}
    {next' : α → Except PlotError β}
    (hnext : ∀ a, result = .ok a → next a = ofExcept (next' a)) :
    ofExcept result >>= next = ofExcept (result.bind next') := by
  cases result with
  | error e => rfl
  | ok a => exact hnext a rfl

theorem ok_bind (a : α) (next : α → Checked β) : ofExcept (.ok a) >>= next = next a :=
  rfl

theorem cell_eq {cells : List String} {index : ℕ} {raw : String}
    (hcell : cells[index]? = some raw) : cell cells index = ofExcept (.ok raw) := by
  rw [cell, hcell]
  rfl

theorem difference_eq {whole part : ℕ} (hle : part ≤ whole) :
    difference whole part = ofExcept (.ok (whole - part)) := by
  rw [difference, if_pos hle]
  rfl

theorem numbersFrom_eq (file column : String) {index : ℕ} {rows : List (List String)}
    (hrows : ∀ cells ∈ rows, cells[index]? = some (cells.getD index "nan")) (row : ℕ) :
    numbersFrom file column index row rows =
      ofExcept (ThroughputPlot.numbersFrom file column row (rows.map (·.getD index "nan"))) := by
  induction rows generalizing row with
  | nil => rfl
  | cons cells rest ih =>
      rw [List.forall_mem_cons] at hrows
      have hrest := ih hrows.2 (row + 1)
      rw [numbersFrom, cell_eq hrows.1, ok_bind, List.map_cons, ThroughputPlot.numbersFrom]
      cases Binary64.ofLiteral? (cells.getD index "nan").toList with
      | none => rfl
      | some x =>
          dsimp only
          rw [hrest]
          cases ThroughputPlot.numbersFrom file column (row + 1)
            (rest.map (·.getD index "nan")) <;> rfl

theorem column_eq {table : Table} (hrect : table.Rectangular) (name : String) :
    column table name = ofExcept (table.column name) := by
  obtain hname | ⟨index, hindex⟩ := table.not_mem_or_isColumn name
  · rw [column, List.idxOf?_eq_none_iff.mpr hname, Table.column_eq_of_not_mem hname]
  · have hcells : ∀ cells ∈ table.rows, cells[index]? = some (cells.getD index "nan") :=
      fun cells hcells => hrect.getElem?_eq hindex.lt_length hcells
    rw [column, Table.idxOf?_eq_some_iff_isColumn.mpr hindex, Table.column_eq_of_isColumn hindex]
    exact numbersFrom_eq table.source name hcells 1

theorem loadSeries_eq {table : Table} (hrect : table.Rectangular) (columns : String × String) :
    loadSeries table columns = ofExcept (ThroughputPlot.loadSeries table columns).result := by
  rw [loadSeries, result_loadSeries, column_eq hrect]
  apply ofExcept_bind
  intro xs hxs
  rw [column_eq hrect]
  apply ofExcept_bind
  intro ys _
  dsimp only
  rw [difference_eq (length_points_le hxs)]
  rfl

theorem mapM_loadSeries_eq {table : Table} (hrect : table.Rectangular)
    (pairs : List (String × String)) :
    pairs.mapM (loadSeries table) =
      ofExcept (pairs.mapM (ThroughputPlot.loadSeries table)).result := by
  induction pairs with
  | nil => rfl
  | cons columns pairs ih =>
      rw [List.mapM_cons, List.mapM_cons, Report.result_bind, loadSeries_eq hrect]
      apply ofExcept_bind
      intro series _
      rw [ih, Report.result_bind]
      apply ofExcept_bind
      intro rest _
      rfl

theorem build_eq {table : Table} (hrect : table.Rectangular) (job : ChartJob)
    (labels : LabelValues) (allSeries : Bool) :
    build job table labels allSeries =
      ofExcept (Chart.build job table labels allSeries).result := by
  rw [build, Chart.result_build, mapM_loadSeries_eq hrect]
  apply ofExcept_bind
  intro series _
  apply ofExcept_bind
  intro _ _
  cases (checkPlottable table "y" (Chart.ofSeries job labels series).yRange).result <;> rfl

/-- A row that is too short would stop the building. -/
example : (column ⟨"rhm-insert.txt", ["x_0", "y_0"], [["1"]]⟩ "y_0").run = .ok none := by
  decide

theorem chart_eq (source : String) (text : List Char) (job : ChartJob) (labels : LabelValues)
    (allSeries : Bool) :
    chart source text job labels allSeries =
      ofExcept (Table.read source text >>= fun table =>
        Chart.build job table labels allSeries).result := by
  rw [chart, Report.result_bind]
  apply ofExcept_bind
  intro table hread
  exact build_eq (Table.rectangular_of_read hread) job labels allSeries

end Checked

/-- A table that was read has a cell for each column in every row, so that building a chart from
it never looks for a cell that is not there and never drops more points than there are rows.
With every such step checked, the building gives the same chart or the same error. -/
theorem Chart.build_of_read_in_bounds (source : String) (text : List Char) (job : ChartJob)
    (labels : LabelValues) (allSeries : Bool) :
    (∀ table, (Table.read source text).result = .ok table →
      table.Rectangular ∧
      (∀ name index, table.headers.idxOf? name = some index →
        ∀ cells ∈ table.rows, index < cells.length) ∧
      ∀ columns series, (loadSeries table columns).result = .ok series →
        series.points.length ≤ table.size) ∧
    (Checked.chart source text job labels allSeries).run =
      (Table.read source text >>= fun table =>
        Chart.build job table labels allSeries).result.map some := by
  constructor
  · intro table hread
    have hrect := Table.rectangular_of_read hread
    refine ⟨hrect, ?_, fun columns series hload => length_points_of_loadSeries hload⟩
    intro name index hindex cells hcells
    rw [hrect cells hcells]
    exact (Table.idxOf?_eq_some_iff_isColumn.mp hindex).lt_length
  · rw [Checked.chart_eq]
    cases (Table.read source text >>= fun table =>
      Chart.build job table labels allSeries).result <;> rfl

/-- A byte order mark before a blank, which leaves an empty name, a name twice, and short rows. -/
def markedText : List Char := "\uFEFF x_0 y_0 y_0\n0 1 2\n0 3\n".toList

theorem Chart.build_of_marked_in_bounds :
    ∃ table, (Table.read "rhm-insert.txt" markedText).result = .ok table ∧
      table.headers = ["", "x_0", "y_0", "y_0"] ∧ table.Rectangular ∧
      ∃ chart, (Checked.chart "rhm-insert.txt" markedText .insert ⟨1000, 500⟩ true).run =
        .ok (some chart) ∧ chart.series.map (·.points.length) = [1] := by
  obtain ⟨hin, hchart⟩ :=
    build_of_read_in_bounds "rhm-insert.txt" markedText .insert ⟨1000, 500⟩ true
  have hread : (Table.read "rhm-insert.txt" markedText).result = .ok ⟨"rhm-insert.txt",
      ["", "x_0", "y_0", "y_0"], [["0", "1", "2", "nan"], ["0", "3", "nan", "nan"]]⟩ := by
    decide +kernel
  refine ⟨_, hread, rfl, (hin _ hread).1, ?_⟩
  have hcounts : (Table.read "rhm-insert.txt" markedText >>= fun table =>
      Chart.build .insert table ⟨1000, 500⟩ true).result.toOption.map
        (·.series.map (·.points.length)) = some [1] := by
    decide +kernel
  rw [hchart]
  cases hbuild : (Table.read "rhm-insert.txt" markedText >>= fun table =>
      Chart.build .insert table ⟨1000, 500⟩ true).result with
  | error e =>
      rw [hbuild] at hcounts
      cases hcounts
  | ok chart =>
      rw [hbuild] at hcounts
      exact ⟨chart, rfl, Option.some.inj hcounts⟩

end ThroughputPlot
