import ThroughputPlot.Chart
import ThroughputPlot.Proofs.AxisRange

/-!
# Charts and their axes

A renderer scales each point by the distance between the ends of an axis, and so it relies on
axes that are finite, that are not too long, and that show every point of every series.  This
holds of each chart that is built, whatever table it is built from.
-/

namespace ThroughputPlot

/-! ## Building a chart step by step -/

theorem Report.result_mapM_eq_ok_iff {α β : Type} {f : α → Report β} {xs : List α} {ys : List β} :
    (xs.mapM f).result = .ok ys ↔ List.Forall₂ (fun x y => (f x).result = .ok y) xs ys := by
  induction xs generalizing ys with
  | nil => cases ys <;> simp
  | cons x xs ih =>
      rw [List.mapM_cons, Report.result_bind]
      cases hx : (f x).result with
      | error e => cases ys <;> simp [Except.bind, hx]
      | ok y =>
          cases hxs : (xs.mapM f).result with
          | error e => cases ys <;> simp [Except.bind, Except.map, hx, hxs, ← ih]
          | ok rest => cases ys <;> simp [Except.bind, Except.map, hx, hxs, ← ih]

theorem result_loadSeries (table : Table) (columns : String × String) :
    (loadSeries table columns).result =
      (table.column columns.1).bind fun xs => (table.column columns.2).bind fun ys =>
        .ok ⟨columns.2, (xs.zip ys).filter isFinitePoint⟩ := by
  unfold loadSeries
  cases table.column columns.1 with
  | error e => rfl
  | ok xs =>
      cases table.column columns.2 with
      | error e => rfl
      | ok ys => simp [Except.bind]; split <;> rfl

theorem result_checkPlottable (table : Table) (axis : String) (range : AxisRange) :
    (checkPlottable table axis range).result =
      if range.isPlottable then .ok () else .error (.unplottableRange table.source axis) := by
  unfold checkPlottable
  split <;> rfl

namespace Chart

def points (series : List Series) : List (Binary64 × Binary64) := series.flatMap Series.points

def ofSeries (job : ChartJob) (labels : LabelValues) (series : List Series) : Chart where
  title := job.title.map labels.apply
  xLabel := labels.apply job.xLabel
  yLabel := labels.apply job.yLabel
  series := series
  xRange := Axis.range ((points series).map Prod.fst)
  yRange := Axis.range ((points series).map Prod.snd)

theorem result_build (job : ChartJob) (table : Table) (labels : LabelValues) (allSeries : Bool) :
    (build job table labels allSeries).result =
      ((columnPairs job table allSeries).mapM (loadSeries table)).result.bind fun series =>
        (checkPlottable table "x" (ofSeries job labels series).xRange).result.bind fun _ =>
          (checkPlottable table "y" (ofSeries job labels series).yRange).result.map fun _ =>
            ofSeries job labels series := by
  simp only [build, Report.result_bind, Report.result_pure]
  rfl

theorem build_eq_ok_iff {job : ChartJob} {table : Table} {labels : LabelValues} {allSeries : Bool}
    {chart : Chart} :
    (build job table labels allSeries).result = .ok chart ↔
      ∃ series,
        List.Forall₂ (fun columns drawn => (loadSeries table columns).result = .ok drawn)
          (columnPairs job table allSeries) series ∧
        chart = ofSeries job labels series ∧
        chart.xRange.isPlottable = true ∧ chart.yRange.isPlottable = true := by
  simp only [result_build, result_checkPlottable, ← Report.result_mapM_eq_ok_iff]
  cases hseries : ((columnPairs job table allSeries).mapM (loadSeries table)).result with
  | error e => simp [Except.bind]
  | ok series =>
      by_cases hx : (ofSeries job labels series).xRange.isPlottable = true
      · by_cases hy : (ofSeries job labels series).yRange.isPlottable = true
        · simp only [Except.bind, Except.map, hx, hy, if_true, Except.ok.injEq]
          constructor
          · rintro rfl
            exact ⟨series, rfl, rfl, hx, hy⟩
          · rintro ⟨_, rfl, rfl, _⟩
            rfl
        · simp only [Except.bind, Except.map, hx, hy, if_true, Except.ok.injEq]
          constructor
          · intro hfalse
            contradiction
          · rintro ⟨_, rfl, rfl, _, hplottable⟩
            exact absurd hplottable hy
      · simp only [Except.bind, hx, Except.ok.injEq]
        constructor
        · intro hfalse
          contradiction
        · rintro ⟨_, rfl, rfl, hplottable, _⟩
          exact absurd hplottable hx

end Chart

/-! ## The points of a built chart -/

theorem columnPairs_ne_nil (job : ChartJob) (table : Table) (allSeries : Bool) :
    columnPairs job table allSeries ≠ [] :=
  List.cons_ne_nil _ _

theorem isFinitePoint_of_loadSeries {table : Table} {columns : String × String} {series : Series}
    (hload : (loadSeries table columns).result = .ok series) :
    ∀ point ∈ series.points, isFinitePoint point = true := by
  rw [result_loadSeries] at hload
  cases hx : table.column columns.1 with
  | error e => simp [hx, Except.bind] at hload
  | ok xs =>
      cases hy : table.column columns.2 with
      | error e => simp [hx, hy, Except.bind] at hload
      | ok ys =>
          simp only [hx, hy, Except.bind, Except.ok.injEq] at hload
          subst series
          intro point hpoint
          exact (List.mem_filter.mp hpoint).2

theorem isFinitePoint_of_loaded {table : Table} {pairs : List (String × String)}
    {all : List Series}
    (hload : List.Forall₂ (fun columns series => (loadSeries table columns).result = .ok series)
      pairs all) :
    ∀ series ∈ all, ∀ point ∈ series.points, isFinitePoint point = true := by
  induction hload with
  | nil => simp
  | cons hfirst _ ih =>
      intro series hseries
      rcases List.mem_cons.mp hseries with rfl | hrest
      · exact isFinitePoint_of_loadSeries hfirst
      · exact ih series hrest

/-- What a renderer relies on. -/
structure Chart.WellFormed (chart : Chart) : Prop where
  series_ne_nil : chart.series ≠ []
  points_finite : ∀ series ∈ chart.series, ∀ point ∈ series.points,
    point.1.isFinite = true ∧ point.2.isFinite = true
  x_covers : chart.xRange.Covers ((points chart.series).map Prod.fst)
  y_covers : chart.yRange.Covers ((points chart.series).map Prod.snd)
  x_span_finite : (chart.xRange.stop - chart.xRange.start).isFinite = true
  y_span_finite : (chart.yRange.stop - chart.yRange.start).isFinite = true

theorem Axis.range_covers_points {points : List (Binary64 × Binary64)}
    {coordinate : Binary64 × Binary64 → Binary64}
    (hfinite : ∀ point ∈ points, (coordinate point).isFinite = true) :
    (Axis.range (points.map coordinate)).Covers (points.map coordinate) := by
  have hcovers := Axis.range_covers (points.map coordinate)
  have hfilter : (points.map coordinate).filter Binary64.isFinite = points.map coordinate := by
    apply List.filter_eq_self.mpr
    intro x hx
    obtain ⟨point, hpoint, rfl⟩ := List.mem_map.mp hx
    exact hfinite point hpoint
  rwa [hfilter] at hcovers

theorem Chart.wellFormed_of_build {job : ChartJob} {table : Table} {labels : LabelValues}
    {allSeries : Bool} {chart : Chart}
    (hbuild : (Chart.build job table labels allSeries).result = .ok chart) : chart.WellFormed := by
  obtain ⟨series, hload, rfl, hx, hy⟩ := Chart.build_eq_ok_iff.mp hbuild
  have hfinite : ∀ drawn ∈ series, ∀ point ∈ drawn.points,
      point.1.isFinite = true ∧ point.2.isFinite = true := by
    intro drawn hdrawn point hpoint
    exact Bool.and_eq_true_iff.mp (isFinitePoint_of_loaded hload drawn hdrawn point hpoint)
  have hpoints : ∀ point ∈ points series, point.1.isFinite = true ∧ point.2.isFinite = true := by
    intro point hpoint
    obtain ⟨drawn, hdrawn, hmem⟩ := List.mem_flatMap.mp hpoint
    exact hfinite drawn hdrawn point hmem
  refine ⟨?_, hfinite, ?_, ?_, hx, hy⟩
  · rintro rfl
    exact columnPairs_ne_nil job table allSeries (List.forall₂_nil_right_iff.mp hload)
  · exact Axis.range_covers_points fun point hpoint => (hpoints point hpoint).1
  · exact Axis.range_covers_points fun point hpoint => (hpoints point hpoint).2

/-- Values far apart in one series, and points to drop in the other. -/
def Table.uneven : Table where
  source := "rhm-churn.txt"
  headers := ["x_0", "y_0", "x_1", "y_1"]
  rows := [["1", "-7e307", "-0", "inf"], ["2", "8e307", "3", "7"], ["nan", "0", "3e-324", "5"]]

theorem Chart.wellFormed_uneven :
    ∃ chart, (Chart.build .churn Table.uneven ⟨1000, 500⟩ true).result = .ok chart ∧
      chart.series.map (·.points.length) = [2, 2] ∧ chart.WellFormed := by
  have hcounts : (Chart.build .churn Table.uneven ⟨1000, 500⟩ true).result.toOption.map
      (·.series.map (·.points.length)) = some [2, 2] := by
    decide +kernel
  cases hbuild : (Chart.build .churn Table.uneven ⟨1000, 500⟩ true).result with
  | error e => simp [hbuild, Except.toOption] at hcounts
  | ok chart =>
      have hlengths : chart.series.map (·.points.length) = [2, 2] := by
        simpa [hbuild, Except.toOption] using hcounts
      exact ⟨chart, rfl, hlengths, Chart.wellFormed_of_build hbuild⟩

end ThroughputPlot
