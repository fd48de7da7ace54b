import ThroughputPlot.Proofs.SeriesDiscovery

/-!
# The order of the columns

A chart looks its columns up by their names, and finds numbered pairs by the names that are there.
So it does not matter in which order the columns stand, nor which others stand between them, as long
as a name leads to one column and the others have names that nobody asks for.  Only an error about
a missing column tells the difference, since it lists the columns that are there.
-/

namespace ThroughputPlot

/-! ## Reports with other errors -/

namespace Report

variable {α β : Type}

def mapError (f : PlotError → PlotError) (r : Report α) : Report α :=
  ⟨r.entries, r.result.mapError f⟩

theorem ofExcept_mapError (f : PlotError → PlotError) (result : Except PlotError α) :
    ofExcept (result.mapError f) = (ofExcept result).mapError f :=
  rfl

theorem mapError_bind (f : PlotError → PlotError) (r : Report α) {next next' : α → Report β}
    (hnext : ∀ a, next' a = (next a).mapError f) :
    r.mapError f >>= next' = (r >>= next).mapError f := by
  cases hresult : r.result with
  | error e =>
      have hmapped : (r.mapError f).result = .error (f e) := congrArg (Except.mapError f) hresult
      rw [bind_of_error hmapped, bind_of_error hresult]
      rfl
  | ok a =>
      have hmapped : (r.mapError f).result = .ok a := congrArg (Except.mapError f) hresult
      rw [bind_of_ok hmapped, bind_of_ok hresult, hnext]
      rfl

theorem mapError_mapM (f : PlotError → PlotError) {g g' : α → Report β} {xs : List α}
    (heach : ∀ x ∈ xs, g' x = (g x).mapError f) : xs.mapM g' = (xs.mapM g).mapError f := by
  induction xs with
  | nil => rfl
  | cons x xs ih =>
      obtain ⟨hx, hxs⟩ := List.forall_mem_cons.mp heach
      rw [List.mapM_cons, List.mapM_cons, hx]
      apply mapError_bind
      intro y
      rw [ih hxs]
      apply mapError_bind
      intro ys
      rfl

end Report

/-- The error with other columns listed as available, if it lists them. -/
def PlotError.withAvailable (available : List String) : PlotError → PlotError
  | .missingColumn file column _ => .missingColumn file column available
  | e => e

/-! ## Tables by their columns -/

namespace Table

/-- The names with the cells below them; of a rectangular table these are all of its cells. -/
def columns (table : Table) : List (String × List String) :=
  table.headers.zipIdx.map fun numbered => (numbered.1, table.cells numbered.2)

/-- The table has the columns of another one and some more, in any order. -/
structure Rearranges (wide table : Table) (extra : List (String × List String)) : Prop where
  source_eq : wide.source = table.source
  size_eq : wide.size = table.size
  columns_perm : wide.columns.Perm (table.columns ++ extra)

variable {table wide : Table} {name : String} {cells : List String}
  {extra : List (String × List String)}

theorem map_fst_columns (table : Table) : table.columns.map Prod.fst = table.headers := by
  rw [columns, List.map_map]
  exact List.zipIdx_map_fst 0 table.headers

theorem mem_headers_iff_columns : name ∈ table.headers ↔ ∃ cells, (name, cells) ∈ table.columns := by
  rw [← map_fst_columns, List.mem_map]
  constructor
  · rintro ⟨⟨_, cells⟩, hmem, rfl⟩
    exact ⟨cells, hmem⟩
  · rintro ⟨cells, hmem⟩
    exact ⟨_, hmem, rfl⟩

theorem IsColumn.mem_columns {index : ℕ} (hcolumn : table.IsColumn name index) :
    (name, table.cells index) ∈ table.columns :=
  List.mem_map.mpr ⟨(name, index), List.mk_mem_zipIdx_iff_getElem?.mpr hcolumn.1, rfl⟩

/-- Where the cells below a name are known, the order of the columns does not matter. -/
theorem column_eq_of_only (hmem : (name, cells) ∈ table.columns)
    (honly : ∀ cells', (name, cells') ∈ table.columns → cells' = cells) :
    table.column name = numbersFrom table.source name 1 cells := by
  obtain hname | ⟨index, hindex⟩ := table.not_mem_or_isColumn name
  · exact absurd (mem_headers_iff_columns.mpr ⟨cells, hmem⟩) hname
  · rw [column_eq_of_isColumn hindex, honly _ hindex.mem_columns]

theorem eq_of_mem_columns (hnodup : table.headers.Nodup) {cells' : List String}
    (hmem : (name, cells) ∈ table.columns) (hmem' : (name, cells') ∈ table.columns) :
    cells' = cells := by
  rw [← map_fst_columns] at hnodup
  have heq := List.inj_on_of_nodup_map hnodup hmem' hmem rfl
  exact (Prod.mk.inj heq).2

namespace Rearranges

theorem mem_headers_iff (hwide : wide.Rearranges table extra) :
    name ∈ wide.headers ↔ name ∈ table.headers ∨ name ∈ extra.map Prod.fst := by
  have hnames := (hwide.columns_perm.map Prod.fst).mem_iff (a := name)
  rwa [List.map_append, map_fst_columns, map_fst_columns, List.mem_append] at hnames

theorem column_eq (hwide : wide.Rearranges table extra) (hnodup : table.headers.Nodup)
    (hname : name ∉ extra.map Prod.fst) :
    wide.column name = (table.column name).mapError (PlotError.withAvailable wide.headers) := by
  by_cases hmem : name ∈ table.headers
  · obtain ⟨cells, hcells⟩ := mem_headers_iff_columns.mp hmem
    have hcellsWide : (name, cells) ∈ wide.columns :=
      hwide.columns_perm.mem_iff.mpr (List.mem_append_left extra hcells)
    have honly : ∀ cells', (name, cells') ∈ wide.columns → cells' = cells := by
      intro cells' hcells'
      rcases List.mem_append.mp (hwide.columns_perm.mem_iff.mp hcells') with hown | hextra
      · exact eq_of_mem_columns hnodup hcells hown
      · exact absurd (List.mem_map_of_mem hextra) hname
    have hnumbers : table.column name = numbersFrom table.source name 1 cells :=
      column_eq_of_only hcells fun _ => eq_of_mem_columns hnodup hcells
    rw [column_eq_of_only hcellsWide honly, hnumbers, hwide.source_eq]
    cases hresult : numbersFrom table.source name 1 cells with
    | ok xs => rfl
    | error e =>
        obtain ⟨before, cell, after, -, -, -, rfl⟩ := numbersFrom_eq_error_iff.mp hresult
        rfl
  · have hmemWide : name ∉ wide.headers := by
      rw [hwide.mem_headers_iff, not_or]
      exact ⟨hmem, hname⟩
    rw [column_eq_of_not_mem hmem, column_eq_of_not_mem hmemWide, hwide.source_eq]
    rfl

end Rearranges

end Table

/-! ## The names that a chart asks for -/

/-- A new name that no chart of the job asks for. -/
structure Unrelated (table : Table) (job : ChartJob) (allSeries : Bool) (name : String) :
    Prop where
  not_mem : name ∉ table.headers
  ne_xColumn : name ≠ job.xColumn
  ne_yColumn : name ≠ job.yColumn
  not_numbered : allSeries = true →
    ¬ ['x', '_'] <+: name.toList ∧ ¬ ['y', '_'] <+: name.toList

theorem toList_yColumnName (k : UInt32) :
    (yColumnName k).toList = 'y' :: '_' :: Nat.toDigits 10 k.toNat := by
  have htext : toString "y_" = "y_" := rfl
  simp [yColumnName, htext]

theorem isPrefix_yColumnName (k : UInt32) : ['y', '_'] <+: (yColumnName k).toList :=
  ⟨_, (toList_yColumnName k).symm⟩

theorem IsXColumn.isPrefix {k : UInt32} {header : String} (hheader : IsXColumn k header) :
    ['x', '_'] <+: header.toList := by
  obtain ⟨text, -, htext⟩ := hheader
  exact ⟨text, htext.symm⟩

section

variable {table wide : Table} {extra : List (String × List String)} {job : ChartJob}
  {allSeries : Bool}

/-- Increasing lists of the same numbers are equal. -/
theorem Table.seriesIndices_eq
    (hsame : ∀ k, k ∈ wide.seriesIndices ↔ k ∈ table.seriesIndices) :
    wide.seriesIndices = table.seriesIndices := by
  have hperm : wide.seriesIndices.Perm table.seriesIndices :=
    (List.perm_ext_iff_of_nodup wide.nodup_seriesIndices table.nodup_seriesIndices).mpr hsame
  refine hperm.eq_of_pairwise ?_ wide.pairwise_seriesIndices table.pairwise_seriesIndices
  intro j k _ _ hlt hgt
  exact absurd (UInt32.lt_trans hlt hgt) (UInt32.lt_irrefl j)

theorem Table.Rearranges.seriesIndices_eq (hwide : wide.Rearranges table extra)
    (hextra : ∀ column ∈ extra, Unrelated table job true column.1) :
    wide.seriesIndices = table.seriesIndices := by
  have hunrelated : ∀ name ∈ extra.map Prod.fst, Unrelated table job true name :=
    List.forall_mem_map.mpr hextra
  apply Table.seriesIndices_eq
  intro k
  rw [Table.mem_seriesIndices_iff, Table.mem_seriesIndices_iff]
  constructor
  · rintro ⟨hy, header, hheader, hk⟩
    refine ⟨?_, header, ?_, hk⟩
    · rcases hwide.mem_headers_iff.mp hy with hown | hnew
      · exact hown
      · exact absurd (isPrefix_yColumnName k) ((hunrelated _ hnew).not_numbered rfl).2
    · rcases hwide.mem_headers_iff.mp hheader with hown | hnew
      · exact hown
      · exact absurd hk.isPrefix ((hunrelated _ hnew).not_numbered rfl).1
  · rintro ⟨hy, header, hheader, hk⟩
    exact ⟨hwide.mem_headers_iff.mpr (.inl hy), header, hwide.mem_headers_iff.mpr (.inl hheader),
      hk⟩

theorem Table.Rearranges.columnPairs_eq (hwide : wide.Rearranges table extra)
    (hextra : ∀ column ∈ extra, Unrelated table job allSeries column.1) :
    columnPairs job wide allSeries = columnPairs job table allSeries := by
  cases allSeries with
  | false => rfl
  | true => rw [columnPairs, columnPairs, hwide.seriesIndices_eq hextra]

theorem not_mem_extra_of_mem_columnPairs
    (hextra : ∀ column ∈ extra, Unrelated table job allSeries column.1)
    {columns : String × String} (hcolumns : columns ∈ columnPairs job table allSeries) :
    columns.1 ∉ extra.map Prod.fst ∧ columns.2 ∉ extra.map Prod.fst := by
  have hunrelated : ∀ name ∈ extra.map Prod.fst, Unrelated table job allSeries name :=
    List.forall_mem_map.mpr hextra
  cases allSeries with
  | false =>
      obtain rfl : columns = (job.xColumn, job.yColumn) := by
        simpa [columnPairs] using hcolumns
      exact ⟨fun hx => (hunrelated _ hx).ne_xColumn rfl,
        fun hy => (hunrelated _ hy).ne_yColumn rfl⟩
  | true =>
      obtain rfl | ⟨k, -, rfl⟩ := mem_columnPairs hcolumns
      · exact ⟨fun hx => (hunrelated _ hx).ne_xColumn rfl,
          fun hy => (hunrelated _ hy).ne_yColumn rfl⟩
      · constructor
        · intro hx
          exact ((hunrelated _ hx).not_numbered rfl).1 (isXColumn_xColumnName k).isPrefix
        · intro hy
          exact ((hunrelated _ hy).not_numbered rfl).2 (isPrefix_yColumnName k)

end

/-! ## The chart of a rearranged table -/

section

variable {table wide : Table} {f : PlotError → PlotError}

theorem loadSeries_mapError (hsource : wide.source = table.source) (hsize : wide.size = table.size)
    {columns : String × String}
    (hx : wide.column columns.1 = (table.column columns.1).mapError f)
    (hy : wide.column columns.2 = (table.column columns.2).mapError f) :
    loadSeries wide columns = (loadSeries table columns).mapError f := by
  unfold loadSeries
  rw [hx, hy, hsource, hsize, Report.ofExcept_mapError, Report.ofExcept_mapError]
  apply Report.mapError_bind
  intro xs
  apply Report.mapError_bind
  intro ys
  dsimp only
  split <;> rfl

theorem checkPlottable_mapError (hsource : wide.source = table.source)
    (hf : ∀ file axis, f (.unplottableRange file axis) = .unplottableRange file axis)
    (axis : String) (range : AxisRange) :
    checkPlottable wide axis range = (checkPlottable table axis range).mapError f := by
  unfold checkPlottable
  split
  · rfl
  · rw [hsource, Report.fail, Report.mapError, Except.mapError, hf]

end

namespace Chart

/-- Columns in another order and further columns that nobody asks for change neither the chart, nor
its warnings, nor its error, except for the columns that the error lists as available. -/
theorem build_of_rearranged {table wide : Table} {extra : List (String × List String)}
    {job : ChartJob} {allSeries : Bool} (hwide : wide.Rearranges table extra)
    (hnodup : table.headers.Nodup)
    (hextra : ∀ column ∈ extra, Unrelated table job allSeries column.1) (labels : LabelValues) :
    build job wide labels allSeries =
      (build job table labels allSeries).mapError (PlotError.withAvailable wide.headers) := by
  have hload : ∀ columns ∈ columnPairs job table allSeries, loadSeries wide columns =
      (loadSeries table columns).mapError (PlotError.withAvailable wide.headers) := by
    intro columns hcolumns
    obtain ⟨hx, hy⟩ := not_mem_extra_of_mem_columnPairs hextra hcolumns
    exact loadSeries_mapError hwide.source_eq hwide.size_eq (hwide.column_eq hnodup hx)
      (hwide.column_eq hnodup hy)
  have hcheck := checkPlottable_mapError (f := PlotError.withAvailable wide.headers)
    hwide.source_eq fun _ _ => rfl
  unfold build
  rw [hwide.columnPairs_eq hextra, Report.mapError_mapM _ hload]
  apply Report.mapError_bind
  intro series
  dsimp only
  rw [hcheck "x"]
  apply Report.mapError_bind
  intro _
  rw [hcheck "y"]
  apply Report.mapError_bind
  intro _
  rfl

end Chart

def Table.compared : Table where
  source := "rhm-churn.txt"
  headers := ["x_0", "y_0", "x_1", "y_1"]
  rows := [["1", "2", "3", "4"], ["5", "nan", "6", "7"]]

/-- The columns stand apart and in another order, between two of one name. -/
def Table.annotated : Table where
  source := "rhm-churn.txt"
  headers := ["y_1", "host", "x_0", "x_1", "host", "y_0"]
  rows := [["4", "north", "1", "3", "rack 7", "2"], ["7", "south", "5", "6", "rack 9", "nan"]]

theorem Chart.build_of_rearranged_annotated :
    Table.annotated.Rearranges Table.compared
      [("host", ["north", "south"]), ("host", ["rack 7", "rack 9"])] ∧
    Unrelated Table.compared .churn true "host" ∧
    build .churn Table.annotated ⟨1000, 500⟩ true =
      (build .churn Table.compared ⟨1000, 500⟩ true).mapError
        (PlotError.withAvailable Table.annotated.headers) ∧
    (build .churn Table.annotated ⟨1000, 500⟩ true).result.toOption.map
      (·.series.map (·.points.length)) = some [1, 2] := by
  have hwide : Table.annotated.Rearranges Table.compared
      [("host", ["north", "south"]), ("host", ["rack 7", "rack 9"])] :=
    ⟨rfl, rfl, by decide +kernel⟩
  have hhost : Unrelated Table.compared .churn true "host" :=
    ⟨by decide, by decide, by decide, by decide⟩
  refine ⟨hwide, hhost, ?_, by decide +kernel⟩
  refine build_of_rearranged hwide (by decide) ?_ _
  simpa using hhost

end ThroughputPlot
