import ThroughputPlot.Proofs.ChartAxes
import ThroughputPlot.Proofs.PlottableAxes
import ThroughputPlot.Proofs.TableColumns

/-!
# What becomes of a chart

A chart asks for the columns of its pairs one after the other, x before y.  The first column
that cannot be had ends the building with its error, whatever is wrong behind it.  When all can
be had, the axes are looked at, x before y, and a chart is drawn only if both are short enough.
-/

namespace ThroughputPlot

/-! ## The first failure in a list -/

section

variable {α β ε : Type} {f : α → Except ε β} {x : α} {xs : List α} {e : ε}

/-- The error of the first element that has one. -/
def FirstFailure (f : α → Except ε β) (xs : List α) (e : ε) : Prop :=
  ∃ before x after, xs = before ++ x :: after ∧ (∀ y ∈ before, ∃ b, f y = .ok b) ∧ f x = .error e

theorem not_firstFailure_nil : ¬ FirstFailure f [] e := by
  rintro ⟨before, x, after, hxs, _⟩
  simp at hxs

theorem firstFailure_cons_of_error {e' : ε} (hx : f x = .error e') :
    FirstFailure f (x :: xs) e ↔ e' = e := by
  unfold FirstFailure
  rw [exists_cons_eq_append_cons_iff]
  simp [hx]

theorem firstFailure_cons_of_ok {b : β} (hx : f x = .ok b) :
    FirstFailure f (x :: xs) e ↔ FirstFailure f xs e := by
  unfold FirstFailure
  rw [exists_cons_eq_append_cons_iff]
  simp [hx]

end

/-! ## The walk over the columns -/

def columnWalk (pairs : List (String × String)) : List String :=
  pairs.flatMap fun columns => [columns.1, columns.2]

theorem columnWalk_cons (columns : String × String) (pairs : List (String × String)) :
    columnWalk (columns :: pairs) = columns.1 :: columns.2 :: columnWalk pairs :=
  rfl

theorem loadAll_eq_error_iff {table : Table} {pairs : List (String × String)}
    {e : PlotError} :
    (pairs.mapM (loadSeries table)).result = .error e ↔
      FirstFailure table.column (columnWalk pairs) e := by
  induction pairs with
  | nil => exact iff_of_false (by simp) not_firstFailure_nil
  | cons columns pairs ih =>
      rw [List.mapM_cons, Report.result_bind, result_loadSeries, columnWalk_cons]
      cases hx : table.column columns.1 with
      | error e' =>
          rw [firstFailure_cons_of_error hx]
          simp [Except.bind]
      | ok xs =>
          rw [firstFailure_cons_of_ok hx]
          cases hy : table.column columns.2 with
          | error e' =>
              rw [firstFailure_cons_of_error hy]
              simp [Except.bind]
          | ok ys =>
              rw [firstFailure_cons_of_ok hy, ← ih]
              cases hrest : (pairs.mapM (loadSeries table)).result <;>
                simp [Except.bind, Except.map, hrest]

/-! ## The points of a series, row by row -/

/-- The point that a row has in two columns, if both of its numbers are finite. -/
def pointAt? (x y : ℕ) (cells : List String) : Option (Binary64 × Binary64) :=
  (numberAt? x cells).bind fun a => (numberAt? y cells).bind fun b =>
    if a.isFinite ∧ b.isFinite then some (a, b) else none

structure Series.Shows (series : Series) (table : Table) (columns : String × String) : Prop where
  name_eq : series.name = columns.2
  points_eq : ∃ x y, table.IsColumn columns.1 x ∧ table.IsColumn columns.2 y ∧
    series.points = table.rows.filterMap (pointAt? x y)

/-- Every column that a chart asks for can be had, and each pair has its series. -/
structure Loaded (table : Table) (pairs : List (String × String)) (series : List Series) :
    Prop where
  numeric : ∀ name ∈ columnWalk pairs, table.Numeric name
  shows : List.Forall₂ (fun columns drawn => drawn.Shows table columns) pairs series

theorem filter_zip_eq_filterMap {x y : ℕ} {rows : List (List String)} {xs ys : List Binary64}
    (hx : rows.map (numberAt? x) = xs.map some) (hy : rows.map (numberAt? y) = ys.map some) :
    (xs.zip ys).filter isFinitePoint = rows.filterMap (pointAt? x y) := by
  induction rows generalizing xs ys with
  | nil =>
      obtain rfl : xs = [] := by simpa using hx.symm
      rfl
  | cons cells rows ih =>
      cases xs with
      | nil => contradiction
      | cons a xs =>
          cases ys with
          | nil => contradiction
          | cons b ys =>
              obtain ⟨ha, hxs⟩ := List.cons.inj hx
              obtain ⟨hb, hys⟩ := List.cons.inj hy
              have hrest := ih hxs hys
              by_cases hfinite : a.isFinite ∧ b.isFinite
              · have hpoint : pointAt? x y cells = some (a, b) := by
                  simp [pointAt?, ha, hb, hfinite]
                rw [List.filterMap_cons_some hpoint, List.zip_cons_cons,
                  List.filter_cons_of_pos (by simpa [isFinitePoint] using hfinite), hrest]
              · have hpoint : pointAt? x y cells = none := by
                  simp [pointAt?, ha, hb, hfinite]
                rw [List.filterMap_cons_none hpoint, List.zip_cons_cons,
                  List.filter_cons_of_neg (by simpa [isFinitePoint] using hfinite), hrest]

theorem loadSeries_eq_ok_iff {table : Table} {columns : String × String} {series : Series} :
    (loadSeries table columns).result = .ok series ↔
      ∃ xs ys, table.column columns.1 = .ok xs ∧ table.column columns.2 = .ok ys ∧
        series = ⟨columns.2, (xs.zip ys).filter isFinitePoint⟩ := by
  rw [result_loadSeries]
  cases table.column columns.1 with
  | error e => simp [Except.bind]
  | ok xs =>
      cases table.column columns.2 with
      | error e => simp [Except.bind]
      | ok ys => simp [Except.bind, eq_comm]

theorem Table.Rectangular.loadSeries_eq_ok_iff {table : Table} (hrect : table.Rectangular)
    {columns : String × String} {series : Series} :
    (loadSeries table columns).result = .ok series ↔
      table.Numeric columns.1 ∧ table.Numeric columns.2 ∧ series.Shows table columns := by
  rw [ThroughputPlot.loadSeries_eq_ok_iff, ← hrect.exists_column_eq_ok_iff,
    ← hrect.exists_column_eq_ok_iff]
  constructor
  · rintro ⟨xs, ys, hxs, hys, rfl⟩
    obtain ⟨x, hx, hxmap⟩ := hrect.column_eq_ok_iff.mp hxs
    obtain ⟨y, hy, hymap⟩ := hrect.column_eq_ok_iff.mp hys
    exact ⟨⟨xs, hxs⟩, ⟨ys, hys⟩, rfl, x, y, hx, hy, filter_zip_eq_filterMap hxmap hymap⟩
  · rintro ⟨⟨xs, hxs⟩, ⟨ys, hys⟩, hname, x, y, hx, hy, hpoints⟩
    obtain ⟨x', hx', hxmap⟩ := hrect.column_eq_ok_iff.mp hxs
    obtain ⟨y', hy', hymap⟩ := hrect.column_eq_ok_iff.mp hys
    obtain rfl := hx.unique hx'
    obtain rfl := hy.unique hy'
    refine ⟨xs, ys, hxs, hys, ?_⟩
    rw [filter_zip_eq_filterMap hxmap hymap, ← hname, ← hpoints]

theorem Table.Rectangular.loadAll_eq_ok_iff {table : Table} (hrect : table.Rectangular)
    {pairs : List (String × String)} {series : List Series} :
    (pairs.mapM (loadSeries table)).result = .ok series ↔ Loaded table pairs series := by
  rw [Report.result_mapM_eq_ok_iff]
  constructor
  · intro hload
    induction hload with
    | nil => exact ⟨by simp [columnWalk], .nil⟩
    | @cons columns drawn pairs series hfirst _ ih =>
        obtain ⟨hx, hy, hshows⟩ := hrect.loadSeries_eq_ok_iff.mp hfirst
        refine ⟨?_, .cons hshows ih.shows⟩
        rw [columnWalk_cons, List.forall_mem_cons, List.forall_mem_cons]
        exact ⟨hx, hy, ih.numeric⟩
  · rintro ⟨hnumeric, hshows⟩
    induction hshows with
    | nil => exact .nil
    | cons hfirst _ ih =>
        rw [columnWalk_cons, List.forall_mem_cons, List.forall_mem_cons] at hnumeric
        obtain ⟨hx, hy, hrest⟩ := hnumeric
        exact .cons (hrect.loadSeries_eq_ok_iff.mpr ⟨hx, hy, hfirst⟩) (ih hrest)

/-! ## The outcome -/

namespace Chart

/-- What becomes of a chart, with one rule for each way to fail. -/
inductive Outcome (job : ChartJob) (table : Table) (labels : LabelValues) (allSeries : Bool) :
    Except PlotError Chart → Prop where
  | faulty {before after : List String} {name : String} {e : PlotError}
      (hwalk : columnWalk (columnPairs job table allSeries) = before ++ name :: after)
      (hbefore : ∀ earlier ∈ before, table.Numeric earlier)
      (hfault : table.ColumnFault name e) :
      Outcome job table labels allSeries (.error e)
  | tooWide {series : List Series}
      (hloaded : Loaded table (columnPairs job table allSeries) series)
      (hx : Axis.SpanOverflows ((points series).map Prod.fst)) :
      Outcome job table labels allSeries (.error (.unplottableRange table.source "x"))
  | tooHigh {series : List Series}
      (hloaded : Loaded table (columnPairs job table allSeries) series)
      (hx : ¬ Axis.SpanOverflows ((points series).map Prod.fst))
      (hy : Axis.SpanOverflows ((points series).map Prod.snd)) :
      Outcome job table labels allSeries (.error (.unplottableRange table.source "y"))
  | drawn {series : List Series}
      (hloaded : Loaded table (columnPairs job table allSeries) series)
      (hx : ¬ Axis.SpanOverflows ((points series).map Prod.fst))
      (hy : ¬ Axis.SpanOverflows ((points series).map Prod.snd)) :
      Outcome job table labels allSeries (.ok (ofSeries job labels series))

variable {job : ChartJob} {table : Table} {labels : LabelValues} {allSeries : Bool}

theorem result_build_of_error {e : PlotError}
    (hload : ((columnPairs job table allSeries).mapM (loadSeries table)).result = .error e) :
    (build job table labels allSeries).result = .error e := by
  rw [result_build, hload]
  rfl

theorem result_build_of_ok {series : List Series}
    (hload : ((columnPairs job table allSeries).mapM (loadSeries table)).result = .ok series) :
    (build job table labels allSeries).result =
      if Axis.SpanOverflows ((points series).map Prod.fst) then
        .error (.unplottableRange table.source "x")
      else if Axis.SpanOverflows ((points series).map Prod.snd) then
        .error (.unplottableRange table.source "y")
      else .ok (ofSeries job labels series) := by
  have hx : (ofSeries job labels series).xRange.isPlottable = true ↔
      ¬ Axis.SpanOverflows ((points series).map Prod.fst) := Axis.isPlottable_range_iff
  have hy : (ofSeries job labels series).yRange.isPlottable = true ↔
      ¬ Axis.SpanOverflows ((points series).map Prod.snd) := Axis.isPlottable_range_iff
  rw [result_build, hload]
  simp only [Except.bind, result_checkPlottable, hx, hy, ite_not]
  split_ifs <;> rfl

theorem exists_outcome (hrect : table.Rectangular) :
    Outcome job table labels allSeries (build job table labels allSeries).result := by
  cases hload : ((columnPairs job table allSeries).mapM (loadSeries table)).result with
  | error e =>
      rw [result_build_of_error hload]
      obtain ⟨before, name, after, hwalk, hbefore, hname⟩ := loadAll_eq_error_iff.mp hload
      refine .faulty hwalk ?_ (hrect.column_eq_error_iff.mp hname)
      intro earlier hearlier
      exact hrect.exists_column_eq_ok_iff.mp (hbefore earlier hearlier)
  | ok series =>
      have hloaded := hrect.loadAll_eq_ok_iff.mp hload
      rw [result_build_of_ok hload]
      split_ifs with hx hy
      · exact .tooWide hloaded hx
      · exact .tooHigh hloaded hx hy
      · exact .drawn hloaded hx hy

theorem Outcome.result_build_eq (hrect : table.Rectangular) {result : Except PlotError Chart}
    (houtcome : Outcome job table labels allSeries result) :
    (build job table labels allSeries).result = result := by
  cases houtcome with
  | faulty hwalk hbefore hfault =>
      apply result_build_of_error
      refine loadAll_eq_error_iff.mpr ⟨_, _, _, hwalk, ?_, ?_⟩
      · intro earlier hearlier
        exact hrect.exists_column_eq_ok_iff.mpr (hbefore earlier hearlier)
      · exact hrect.column_eq_error_iff.mpr hfault
  | tooWide hloaded hx =>
      rw [result_build_of_ok (hrect.loadAll_eq_ok_iff.mpr hloaded), if_pos hx]
  | tooHigh hloaded hx hy =>
      rw [result_build_of_ok (hrect.loadAll_eq_ok_iff.mpr hloaded), if_neg hx, if_pos hy]
  | drawn hloaded hx hy =>
      rw [result_build_of_ok (hrect.loadAll_eq_ok_iff.mpr hloaded), if_neg hx, if_neg hy]

/-- Of a rectangular table a chart has exactly one outcome. -/
theorem result_build_eq_iff_outcome (hrect : table.Rectangular) (job : ChartJob)
    (labels : LabelValues) (allSeries : Bool) (result : Except PlotError Chart) :
    (build job table labels allSeries).result = result ↔
      Outcome job table labels allSeries result := by
  constructor
  · rintro rfl
    exact exists_outcome hrect
  · exact Outcome.result_build_eq hrect

end Chart

/-- Two columns of one name, stray text in both of them, and a value that is not finite. -/
def Table.blemished : Table where
  source := "rhm-churn.txt"
  headers := ["x_0", "y_0", "x_1", "y_1", "y_1"]
  rows := [["1", "2", "3", "4", "oops"], ["5", "inf", "6", "seven", "8"]]

theorem Chart.outcome_blemished :
    Table.blemished.Rectangular ∧
      Outcome .churn Table.blemished ⟨1000, 500⟩ true
        (.error (.invalidNumber "rhm-churn.txt" "y_1" 2 "seven")) ∧
      ∃ chart, Outcome .churn Table.blemished ⟨1000, 500⟩ false (.ok chart) ∧
        chart.series.map (·.points.length) = [1] := by
  have hrect : Table.blemished.Rectangular := by
    simp [Table.Rectangular, Table.blemished]
  refine ⟨hrect, ?_, ?_⟩
  · rw [← result_build_eq_iff_outcome hrect]
    decide +kernel
  · have hcounts : (build .churn Table.blemished ⟨1000, 500⟩ false).result.toOption.map
        (·.series.map (·.points.length)) = some [1] := by
      decide +kernel
    cases hbuild : (build .churn Table.blemished ⟨1000, 500⟩ false).result with
    | error e => simp [hbuild, Except.toOption] at hcounts
    | ok chart =>
        have hdrawn := (result_build_eq_iff_outcome hrect _ _ _ _).mp hbuild
        exact ⟨chart, hdrawn, by simpa [hbuild, Except.toOption] using hcounts⟩

end ThroughputPlot
