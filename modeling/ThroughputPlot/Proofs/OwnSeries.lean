import ThroughputPlot.Proofs.SeriesDiscovery

/-!
# A chart of the own series alone

The numbered pairs are drawn besides the job's own pair, so that leaving them out can only make
the chart smaller.  Its axes follow other rules when one value or none is left; but an axis that is
short enough to be drawn stays so with fewer values on it, whichever rule it follows then.
-/

namespace ThroughputPlot

/-! ## Pairs of columns -/

theorem xColumnName_injective : Function.Injective xColumnName := by
  intro j k heq
  have htext : (xColumnName j).toList = (xColumnName k).toList := by rw [heq]
  rw [toList_xColumnName, toList_xColumnName, List.cons.injEq, List.cons.injEq] at htext
  exact UInt32.toNat_inj.mp (Text.toDigits_injective htext.2.2)

theorem nodup_columnPairs (job : ChartJob) (table : Table) (allSeries : Bool) :
    (columnPairs job table allSeries).Nodup := by
  have hothers : (table.seriesIndices.map fun k => (xColumnName k, yColumnName k)).Nodup := by
    refine table.nodup_seriesIndices.map ?_
    intro j k heq
    exact xColumnName_injective (Prod.mk.inj heq).1
  unfold columnPairs
  refine List.nodup_cons.mpr ⟨?_, ?_⟩
  · split <;> simp
  · split
    · exact hothers.filter _
    · exact .nil

/-! ## The smaller chart -/

namespace Chart

theorem points_subset_cons (first : Series) (others : List Series) :
    points [first] ⊆ points (first :: others) := by
  intro point hpoint
  simp only [points, List.flatMap_cons, List.flatMap_nil, List.append_nil] at hpoint ⊢
  exact List.mem_append_left _ hpoint

/-- A chart of all series only adds to the chart of the own series: where it can be built, the
other can, and has its first series and its texts.  No pair of columns is drawn twice. -/
theorem build_own_of_build_all {job : ChartJob} {table : Table} {labels : LabelValues}
    {full : Chart} (hfull : (build job table labels true).result = .ok full) :
    (∃ first others single, full.series = first :: others ∧
      (build job table labels false).result = .ok single ∧ single.series = [first] ∧
      single.title = full.title ∧ single.xLabel = full.xLabel ∧ single.yLabel = full.yLabel) ∧
    List.Forall₂ (fun columns drawn => (loadSeries table columns).result = .ok drawn)
      (columnPairs job table true) full.series ∧
    (columnPairs job table true).Nodup := by
  obtain ⟨series, hload, rfl, hx, hy⟩ := build_eq_ok_iff.mp hfull
  refine ⟨?_, hload, nodup_columnPairs job table true⟩
  obtain ⟨first, others, hfirst, -, rfl⟩ := List.forall₂_cons_left_iff.mp hload
  have hsub := points_subset_cons first others
  refine ⟨first, others, ofSeries job labels [first], rfl, ?_, rfl, rfl, rfl, rfl⟩
  refine build_eq_ok_iff.mpr ⟨[first], .cons hfirst .nil, rfl, ?_, ?_⟩
  · exact Axis.isPlottable_range_of_subset (List.map_subset _ hsub) hx
  · exact Axis.isPlottable_range_of_subset (List.map_subset _ hsub) hy

end Chart

/-- The own pair is numbered too, a column is there twice, and one value is left of the own. -/
def Table.repeated : Table where
  source := "rhm-churn.txt"
  headers := ["x_1", "x_0", "y_0", "y_1", "x_1"]
  rows := [["2", "1", "8e307", "3", "nan"], ["4", "nan", "7", "-7e307", "1"]]

theorem Chart.build_own_of_build_all_repeated :
    columnPairs .churn Table.repeated true = [("x_0", "y_0"), ("x_1", "y_1")] ∧
    ∃ full single first others,
      (build .churn Table.repeated ⟨1000, 500⟩ true).result = .ok full ∧
      full.series.map (·.points.length) = [1, 2] ∧ full.series = first :: others ∧
      (build .churn Table.repeated ⟨1000, 500⟩ false).result = .ok single ∧
      single.series = [first] := by
  refine ⟨by decide +kernel, ?_⟩
  have hcounts : (build .churn Table.repeated ⟨1000, 500⟩ true).result.toOption.map
      (·.series.map (·.points.length)) = some [1, 2] := by
    decide +kernel
  cases hbuild : (build .churn Table.repeated ⟨1000, 500⟩ true).result with
  | error e => simp [hbuild, Except.toOption] at hcounts
  | ok full =>
      have hlengths : full.series.map (·.points.length) = [1, 2] := by
        simpa [hbuild, Except.toOption] using hcounts
      obtain ⟨first, others, single, hseries, hsingle, hown, -⟩ := (build_own_of_build_all hbuild).1
      exact ⟨full, single, first, others, rfl, hlengths, hseries, hsingle, hown⟩

end ThroughputPlot
