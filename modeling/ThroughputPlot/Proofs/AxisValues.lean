import ThroughputPlot.Proofs.AxisLength

/-!
# Axes and the numbers on them

An axis depends on the finite numbers that are drawn on it, and neither on their order, nor on how
often they come, nor on what else stands between them.  Numbers are equal as their values are: which
of the two zeros is met first may decide about the sign of an end that is zero, and about nothing
else.  A chart therefore has the same axes for rows in any order and number.
-/

namespace ThroughputPlot

open Binary64

/-- Both ends are numerically equal. -/
structure AxisRange.Same (range range' : AxisRange) : Prop where
  start : range.start.same range'.start = true
  stop : range.stop.same range'.stop = true

namespace Axis

/-! ## The axis of a set of numbers -/

/-- The lists have the same finite numbers; the zeros count as one number. -/
structure SameNumbers (values values' : List Binary64) : Prop where
  within : Within values values'
  within' : Within values' values

/-- Numbers that are equal are one number, unless they are zeros. -/
theorem eq_of_same {x y : Binary64} (hx : x.isFinite = true) (hsame : x.same y = true)
    (hzero : ¬ y.same .zero = true) : x = y := by
  obtain ⟨s, m, rfl⟩ := exists_of_isFinite (isFinite_of_same hx hsame)
  obtain ⟨i, hplace, hplace'⟩ := same_iff_place.mp hsame
  have hpos : 0 < m.rank := by
    rw [same_zero_iff] at hzero
    omega
  exact eq_of_place_eq hx hpos (hplace.trans hplace'.symm)

theorem padding_le_of_same {lo hi lo' hi' : Binary64} {values values' : List Binary64}
    (hbounds : Bounds lo hi values) (hbounds' : Bounds lo' hi' values')
    (hlo : lo.same lo' = true) (hhi : hi.same hi' = true) : padding lo hi ≤ padding lo' hi' := by
  by_cases hsingle : lo.same hi = true
  · have hsingle' : lo'.same hi' = true := same_trans (same_symm hlo) (same_trans hsingle hhi)
    rw [padding, padding, if_pos hsingle, if_pos hsingle']
    by_cases hzero : lo'.same .zero = true
    · rw [if_pos (same_trans hlo hzero), if_pos hzero]
      decide +kernel
    · obtain rfl := eq_of_same hbounds.lo_finite hlo hzero
      rw [if_neg hzero]
      obtain ⟨s, m, rfl⟩ := exists_of_isFinite hbounds.lo_finite
      exact le_refl_of_isFinite (isFinite_mul_margin (x := finite false m) rfl)
  · exact padding_mono hbounds hbounds' (same_iff_le.mp hlo).2 (same_iff_le.mp hhi).1 hsingle

theorem range_same {values values' : List Binary64} (hnumbers : SameNumbers values values') :
    (range values).Same (range values') := by
  rcases extent_cases values with ⟨hnone, -⟩ | ⟨lo, hi, hextent, hbounds⟩
  · have hnone' : extent values' = none := by
      cases hextent' : extent values' with
      | none => rfl
      | some extent' =>
          obtain ⟨lo, hi, hextent, -⟩ := extent_within hnumbers.within' (extent_mem hextent')
          rw [hnone] at hextent
          contradiction
    rw [range, range, hnone, hnone']
    exact ⟨by decide +kernel, by decide +kernel⟩
  · obtain ⟨lo', hi', hextent', hlo, hhi⟩ := extent_within hnumbers.within (extent_mem hextent)
    obtain ⟨lo'', hi'', hextent'', hlo', hhi'⟩ :=
      extent_within hnumbers.within' (extent_mem hextent')
    obtain ⟨rfl, rfl⟩ : lo = lo'' ∧ hi = hi'' := by simpa using hextent.symm.trans hextent''
    have hbounds' := bounds_of_extent hextent'
    have hloSame : lo.same lo' = true := same_iff_le.mpr ⟨hlo', hlo⟩
    have hhiSame : hi.same hi' = true := same_iff_le.mpr ⟨hhi, hhi'⟩
    have hpad := padding_le_of_same hbounds hbounds' hloSame hhiSame
    have hpad' := padding_le_of_same hbounds' hbounds (same_symm hloSame) (same_symm hhiSame)
    have hinside := ends_inside hbounds hbounds' hlo hhi hpad
    have houtside := ends_inside hbounds' hbounds hlo' hhi' hpad'
    rw [range_of_extent hextent, range_of_extent hextent']
    exact ⟨same_iff_le.mpr ⟨houtside.1, hinside.1⟩, same_iff_le.mpr ⟨hinside.2, houtside.2⟩⟩

theorem SameNumbers.spanOverflows_iff {values values' : List Binary64}
    (hnumbers : SameNumbers values values') : SpanOverflows values ↔ SpanOverflows values' :=
  ⟨SpanOverflows.of_within hnumbers.within, SpanOverflows.of_within hnumbers.within'⟩

end Axis

/-! ## Tables with the same rows -/

/-- The tables have the same rows, in any order and each any number of times. -/
structure Table.SameRows (table table' : Table) : Prop where
  source_eq : table'.source = table.source
  headers_eq : table'.headers = table.headers
  mem_rows_iff : ∀ cells, cells ∈ table'.rows ↔ cells ∈ table.rows

theorem mem_zip_iff {α β γ : Type} {f : α → Option β} {g : α → Option γ} {rows : List α}
    {xs : List β} {ys : List γ} (hx : rows.map f = xs.map some) (hy : rows.map g = ys.map some)
    {point : β × γ} :
    point ∈ xs.zip ys ↔ ∃ row ∈ rows, f row = some point.1 ∧ g row = some point.2 := by
  have hzip : (xs.zip ys).map (Prod.map some some) = rows.map fun row => (f row, g row) := by
    rw [← List.zip_map, ← hx, ← hy, List.zip_map']
  have hinjective : Function.Injective (Prod.map (some : β → Option β) (some : γ → Option γ)) :=
    (Option.some_injective β).prodMap (Option.some_injective γ)
  rw [← List.mem_map_of_injective hinjective, hzip, List.mem_map]
  simp [Prod.ext_iff]

/-- The points of a series are those of the rows, whatever the order of the rows. -/
theorem exists_mem_points_iff {table : Table} {columns : String × String} {series : Series}
    (hload : (loadSeries table columns).result = .ok series) :
    ∃ x y, table.IsColumn columns.1 x ∧ table.IsColumn columns.2 y ∧
      ∀ point, point ∈ series.points ↔
        (∃ cells ∈ table.rows, readAt? x cells = some point.1 ∧ readAt? y cells = some point.2) ∧
          isFinitePoint point = true := by
  obtain ⟨xs, ys, hxs, hys, rfl⟩ := loadSeries_eq_ok_iff.mp hload
  obtain ⟨x, hx, hxmap⟩ := Table.column_eq_ok_iff.mp hxs
  obtain ⟨y, hy, hymap⟩ := Table.column_eq_ok_iff.mp hys
  refine ⟨x, y, hx, hy, ?_⟩
  intro point
  rw [List.mem_filter, mem_zip_iff hxmap hymap]

namespace Table.SameRows

variable {table table' : Table} {name : String}

theorem symm (hrows : table.SameRows table') : table'.SameRows table where
  source_eq := hrows.source_eq.symm
  headers_eq := hrows.headers_eq.symm
  mem_rows_iff cells := (hrows.mem_rows_iff cells).symm

theorem isColumn (hrows : table.SameRows table') {index : ℕ} (hcolumn : table.IsColumn name index) :
    table'.IsColumn name index := by
  unfold IsColumn
  rwa [hrows.headers_eq]

theorem exists_column (hrows : table.SameRows table') {xs : List Binary64}
    (hcolumn : table.column name = .ok xs) : ∃ xs', table'.column name = .ok xs' := by
  obtain ⟨index, hindex, hmap⟩ := column_eq_ok_iff.mp hcolumn
  have hread := exists_map_eq_map_some_iff.mp ⟨xs, hmap⟩
  have hread' : ∀ cells ∈ table'.rows, ∃ x, readAt? index cells = some x :=
    fun cells hcells => hread cells ((hrows.mem_rows_iff cells).mp hcells)
  obtain ⟨xs', hmap'⟩ := exists_map_eq_map_some_iff.mpr hread'
  exact ⟨xs', column_eq_ok_iff.mpr ⟨index, hrows.isColumn hindex, hmap'⟩⟩

theorem exists_loadSeries (hrows : table.SameRows table') {columns : String × String}
    {series : Series} (hload : (loadSeries table columns).result = .ok series) :
    ∃ series', (loadSeries table' columns).result = .ok series' ∧
      ∀ point, point ∈ series'.points ↔ point ∈ series.points := by
  obtain ⟨xs, ys, hxs, hys, -⟩ := loadSeries_eq_ok_iff.mp hload
  obtain ⟨xs', hxs'⟩ := hrows.exists_column hxs
  obtain ⟨ys', hys'⟩ := hrows.exists_column hys
  have hload' := loadSeries_eq_ok_iff.mpr ⟨xs', ys', hxs', hys', rfl⟩
  refine ⟨_, hload', ?_⟩
  obtain ⟨x, y, hx, hy, hpoints⟩ := exists_mem_points_iff hload
  obtain ⟨x', y', hx', hy', hpoints'⟩ := exists_mem_points_iff hload'
  obtain rfl : x' = x := hx'.unique (hrows.isColumn hx)
  obtain rfl : y' = y := hy'.unique (hrows.isColumn hy)
  intro point
  rw [hpoints, hpoints']
  simp only [hrows.mem_rows_iff]

theorem exists_loadAll (hrows : table.SameRows table') {pairs : List (String × String)}
    {series : List Series}
    (hload : (pairs.mapM (loadSeries table)).result = .ok series) :
    ∃ series', (pairs.mapM (loadSeries table')).result = .ok series' ∧
      ∀ point, point ∈ Chart.points series' ↔ point ∈ Chart.points series := by
  simp only [Report.result_mapM_eq_ok_iff] at hload ⊢
  induction hload with
  | nil => exact ⟨[], .nil, fun _ => Iff.rfl⟩
  | cons hfirst _ ih =>
      obtain ⟨first, hfirst, hpoints⟩ := hrows.exists_loadSeries hfirst
      obtain ⟨others, hothers, hmore⟩ := ih
      refine ⟨first :: others, .cons hfirst hothers, ?_⟩
      intro point
      simp only [Chart.points, List.flatMap_cons, List.mem_append] at hmore ⊢
      rw [hpoints, hmore]

theorem columnPairs_eq (hrows : table.SameRows table') (job : ChartJob) (allSeries : Bool) :
    columnPairs job table' allSeries = columnPairs job table allSeries := by
  have hindices : table'.seriesIndices = table.seriesIndices := by
    unfold seriesIndices hasColumn
    rw [hrows.headers_eq]
  rw [columnPairs, columnPairs, hindices]

end Table.SameRows

theorem Axis.sameNumbers_map {points points' : List (Binary64 × Binary64)}
    (hpoints : ∀ point, point ∈ points' ↔ point ∈ points)
    (coordinate : Binary64 × Binary64 → Binary64) :
    SameNumbers (points.map coordinate) (points'.map coordinate) where
  within := .of_subset (List.map_subset coordinate fun point => (hpoints point).mpr)
  within' := .of_subset (List.map_subset coordinate fun point => (hpoints point).mp)

/-! ## Charts of the same rows -/

theorem Table.column_ne_unplottable {table : Table} {name : String} {e : PlotError}
    (hcolumn : table.column name = .error e) (file axis : String) :
    e ≠ .unplottableRange file axis := by
  rintro rfl
  obtain hname | ⟨index, hindex⟩ := table.not_mem_or_isColumn name
  · rw [column_eq_of_not_mem hname] at hcolumn
    cases hcolumn
  · rw [column_eq_of_isColumn hindex, numbersFrom_eq_error_iff] at hcolumn
    obtain ⟨_, _, _, _, _, _, heq⟩ := hcolumn
    cases heq

theorem loadAll_ne_unplottable {table : Table} {pairs : List (String × String)} {e : PlotError}
    (hload : (pairs.mapM (loadSeries table)).result = .error e) (file axis : String) :
    e ≠ .unplottableRange file axis := by
  obtain ⟨_, _, _, _, _, hname⟩ := loadAll_eq_error_iff.mp hload
  exact Table.column_ne_unplottable hname file axis

namespace Chart

/-- The charts have the same axes, or the same axis is too long for both, or neither gets so far. -/
inductive SameAxes : Except PlotError Chart → Except PlotError Chart → Prop where
  | drawn {chart chart' : Chart} (hx : chart.xRange.Same chart'.xRange)
      (hy : chart.yRange.Same chart'.yRange) : SameAxes (.ok chart) (.ok chart')
  | unplottable (file axis : String) :
      SameAxes (.error (.unplottableRange file axis)) (.error (.unplottableRange file axis))
  | unread {e e' : PlotError} (he : ∀ file axis, e ≠ .unplottableRange file axis)
      (he' : ∀ file axis, e' ≠ .unplottableRange file axis) : SameAxes (.error e) (.error e')

theorem sameAxes_of_sameRows {table table' : Table} (hrows : table.SameRows table')
    (job : ChartJob) (labels : LabelValues) (allSeries : Bool) :
    SameAxes (build job table labels allSeries).result
      (build job table' labels allSeries).result := by
  have hpairs := hrows.columnPairs_eq job allSeries
  cases hload : ((columnPairs job table allSeries).mapM (loadSeries table)).result with
  | error e =>
      cases hload' : ((columnPairs job table allSeries).mapM (loadSeries table')).result with
      | error e' =>
          rw [result_build_of_error hload, result_build_of_error (hpairs ▸ hload')]
          exact .unread (loadAll_ne_unplottable hload) (loadAll_ne_unplottable hload')
      | ok series' =>
          obtain ⟨series, hseries, -⟩ := hrows.symm.exists_loadAll hload'
          rw [hload] at hseries
          contradiction
  | ok series =>
      obtain ⟨series', hload', hpoints⟩ := hrows.exists_loadAll hload
      have hx := Axis.sameNumbers_map hpoints Prod.fst
      have hy := Axis.sameNumbers_map hpoints Prod.snd
      rw [result_build_of_ok hload, result_build_of_ok (hpairs ▸ hload'), hrows.source_eq]
      simp only [hx.spanOverflows_iff, hy.spanOverflows_iff]
      split_ifs
      · exact .unplottable _ _
      · exact .unplottable _ _
      · exact .drawn (Axis.range_same hx) (Axis.range_same hy)

/-- The range of an axis depends on the set of finite numbers drawn on it.  So charts of the same
rows, in any order and number, have the same axes or are refused alike for their length. -/
theorem axes_of_same_numbers :
    (∀ values values', Axis.SameNumbers values values' →
      (Axis.range values).Same (Axis.range values')) ∧
    ∀ table table' : Table, table.SameRows table' →
      ∀ (job : ChartJob) (labels : LabelValues) (allSeries : Bool),
        SameAxes (build job table labels allSeries).result
          (build job table' labels allSeries).result :=
  ⟨fun _ _ hnumbers => Axis.range_same hnumbers,
    fun _ _ hrows job labels allSeries => sameAxes_of_sameRows hrows job labels allSeries⟩

def measured : List Binary64 := [.zero, .one, .nan, .greatest]

/-- The finite numbers of `measured` in another order, with the other zero and one of them twice. -/
def measuredAgain : List Binary64 := [.greatest, .infinite true, .neg .zero, .one, .one]

end Chart

def Table.firstRun : Table where
  source := "rhm-insert.txt"
  headers := ["x_0", "y_0"]
  rows := [["1", "-0"], ["2", "0"], ["inf", "3"]]

/-- The rows of the first run in another order, and one of them twice. -/
def Table.rerun : Table where
  source := "rhm-insert.txt"
  headers := ["x_0", "y_0"]
  rows := [["2", "0"], ["1", "-0"], ["inf", "3"], ["2", "0"]]

theorem Chart.axes_of_same_numbers_rerun :
    Axis.SameNumbers measured measuredAgain ∧
    (Axis.range measured).Same (Axis.range measuredAgain) ∧
    Table.firstRun.SameRows Table.rerun ∧
    SameAxes (build .insert Table.firstRun ⟨1000, 500⟩ false).result
      (build .insert Table.rerun ⟨1000, 500⟩ false).result := by
  have hnumbers : Axis.SameNumbers measured measuredAgain := by
    constructor
    · unfold Axis.Within
      decide +kernel
    · unfold Axis.Within
      decide +kernel
  have hrows : Table.firstRun.SameRows Table.rerun := by
    refine ⟨rfl, rfl, ?_⟩
    intro cells
    simp only [Table.rerun, Table.firstRun, List.mem_cons, List.not_mem_nil, or_false]
    tauto
  exact ⟨hnumbers, axes_of_same_numbers.1 _ _ hnumbers, hrows,
    axes_of_same_numbers.2 _ _ hrows .insert ⟨1000, 500⟩ false⟩

end ThroughputPlot
