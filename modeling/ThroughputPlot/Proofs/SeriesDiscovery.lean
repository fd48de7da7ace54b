import ThroughputPlot.Proofs.ChartOutcome
import ThroughputPlot.Proofs.Numerals

/-!
# Which series are discovered

The number of a pair is read off its x column, and the name of its y column is written from the
number.  Reading accepts zeros and a plus sign before the digits, so that an x column may stand
for a number without having the name that is written for it.  Where the column of that name is
missing, a pair is discovered that cannot be loaded.  Apart from such tables discovery is exact.
-/

namespace ThroughputPlot

/-! ## Increasing lists of numbers -/

theorem mem_insertIndex {j k : UInt32} {found : List UInt32} :
    j ∈ insertIndex k found ↔ j = k ∨ j ∈ found := by
  induction found with
  | nil => simp [insertIndex]
  | cons first rest ih =>
      rw [insertIndex]
      by_cases hlt : k < first
      · rw [if_pos hlt, List.mem_cons]
      · rw [if_neg hlt]
        by_cases heq : k = first
        · subst heq
          simp
        · rw [if_neg heq, List.mem_cons, ih, List.mem_cons]
          exact or_left_comm

theorem pairwise_insertIndex {k : UInt32} {found : List UInt32}
    (hfound : found.Pairwise (· < ·)) : (insertIndex k found).Pairwise (· < ·) := by
  induction found with
  | nil => exact List.pairwise_singleton _ k
  | cons first rest ih =>
      obtain ⟨hfirst, hrest⟩ := List.pairwise_cons.mp hfound
      rw [insertIndex]
      by_cases hlt : k < first
      · rw [if_pos hlt]
        refine List.pairwise_cons.mpr ⟨?_, hfound⟩
        intro j hj
        rcases List.mem_cons.mp hj with rfl | hj
        · exact hlt
        · exact UInt32.lt_trans hlt (hfirst j hj)
      · rw [if_neg hlt]
        by_cases heq : k = first
        · rw [if_pos heq]
          exact hfound
        · rw [if_neg heq]
          refine List.pairwise_cons.mpr ⟨?_, ih hrest⟩
          intro j hj
          rcases mem_insertIndex.mp hj with rfl | hj
          · exact UInt32.lt_of_le_of_ne (UInt32.not_lt.mp hlt) (Ne.symm heq)
          · exact hfirst j hj

theorem mem_foldr_insertIndex {keep : UInt32 → Bool} {j : UInt32} {ks : List UInt32} :
    j ∈ ks.foldr (fun k found => if keep k then insertIndex k found else found) [] ↔
      j ∈ ks ∧ keep j = true := by
  induction ks with
  | nil => simp
  | cons k ks ih =>
      rw [List.foldr_cons, List.mem_cons]
      by_cases hk : keep k = true
      · rw [if_pos hk, mem_insertIndex, ih]
        constructor
        · rintro (rfl | ⟨hj, hkeep⟩)
          · exact ⟨.inl rfl, hk⟩
          · exact ⟨.inr hj, hkeep⟩
        · rintro ⟨rfl | hj, hkeep⟩
          · exact .inl rfl
          · exact .inr ⟨hj, hkeep⟩
      · rw [if_neg hk, ih]
        constructor
        · rintro ⟨hj, hkeep⟩
          exact ⟨.inr hj, hkeep⟩
        · rintro ⟨rfl | hj, hkeep⟩
          · contradiction
          · exact ⟨hj, hkeep⟩

theorem pairwise_foldr_insertIndex (keep : UInt32 → Bool) (ks : List UInt32) :
    (ks.foldr (fun k found => if keep k then insertIndex k found else found) []).Pairwise
      (· < ·) := by
  induction ks with
  | nil => exact .nil
  | cons k ks ih =>
      rw [List.foldr_cons]
      split_ifs
      · exact pairwise_insertIndex ih
      · exact ih

/-! ## Columns with numbers -/

/-- An x column of a number, by its plain name or by another. -/
def IsXColumn (k : UInt32) (header : String) : Prop :=
  ∃ text, Text.IsUnsignedNumeral k text ∧ header.toList = 'x' :: '_' :: text

theorem toList_xColumnName (k : UInt32) :
    (xColumnName k).toList = 'x' :: '_' :: Nat.toDigits 10 k.toNat := by
  have htext : toString "x_" = "x_" := rfl
  simp [xColumnName, htext]

theorem isXColumn_xColumnName (k : UInt32) : IsXColumn k (xColumnName k) :=
  ⟨_, ⟨_, Text.isNumeral_toDigits k.toNat, .inl rfl⟩, toList_xColumnName k⟩

theorem xIndex?_eq_some_iff {header : String} {k : UInt32} :
    xIndex? header = some k ↔ IsXColumn k header := by
  unfold xIndex? IsXColumn
  constructor
  · intro h
    split at h
    next text hheader => exact ⟨text, Text.uint32?_eq_some_iff.mp h, hheader⟩
    · contradiction
  · rintro ⟨text, htext, hheader⟩
    rw [hheader]
    exact Text.uint32?_eq_some_iff.mpr htext

namespace Table

variable {table : Table}

theorem mem_seriesIndices_iff {k : UInt32} :
    k ∈ table.seriesIndices ↔
      yColumnName k ∈ table.headers ∧ ∃ header ∈ table.headers, IsXColumn k header := by
  have hcolumn : table.hasColumn (yColumnName k) = true ↔ yColumnName k ∈ table.headers := by
    simp [hasColumn]
  have hfound : k ∈ table.headers.filterMap xIndex? ↔
      ∃ header ∈ table.headers, IsXColumn k header := by
    rw [List.mem_filterMap]
    simp only [xIndex?_eq_some_iff]
  unfold seriesIndices
  rw [mem_foldr_insertIndex, hfound, hcolumn]
  exact and_comm

theorem pairwise_seriesIndices (table : Table) : table.seriesIndices.Pairwise (· < ·) :=
  pairwise_foldr_insertIndex _ _

theorem nodup_seriesIndices (table : Table) : table.seriesIndices.Nodup :=
  table.pairwise_seriesIndices.imp fun hlt => UInt32.ne_of_lt hlt

/-- Where a pair has a number, its x column is there by its plain name. -/
def PlainlyNumbered (table : Table) : Prop :=
  ∀ k, ∀ header ∈ table.headers, IsXColumn k header →
    yColumnName k ∈ table.headers → xColumnName k ∈ table.headers

theorem plainlyNumbered_iff :
    table.PlainlyNumbered ↔
      ∀ k, k ∈ table.seriesIndices ↔
        xColumnName k ∈ table.headers ∧ yColumnName k ∈ table.headers := by
  constructor
  · intro hplain k
    rw [mem_seriesIndices_iff]
    constructor
    · rintro ⟨hy, header, hheader, hk⟩
      exact ⟨hplain k header hheader hk hy, hy⟩
    · rintro ⟨hx, hy⟩
      exact ⟨hy, xColumnName k, hx, isXColumn_xColumnName k⟩
  · intro hexact k header hheader hk hy
    have hfound : k ∈ table.seriesIndices := mem_seriesIndices_iff.mpr ⟨hy, header, hheader, hk⟩
    exact ((hexact k).mp hfound).1

end Table

/-! ## Columns that are asked for and missing -/

theorem mem_columnWalk {name : String} {pairs : List (String × String)} :
    name ∈ columnWalk pairs ↔ ∃ columns ∈ pairs, name = columns.1 ∨ name = columns.2 := by
  simp [columnWalk]

theorem mem_columnPairs {job : ChartJob} {table : Table} {allSeries : Bool}
    {columns : String × String} (hcolumns : columns ∈ columnPairs job table allSeries) :
    columns = (job.xColumn, job.yColumn) ∨
      ∃ k ∈ table.seriesIndices, columns = (xColumnName k, yColumnName k) := by
  unfold columnPairs at hcolumns
  rcases List.mem_cons.mp hcolumns with hown | hother
  · exact .inl hown
  · split at hother
    · obtain ⟨k, hk, rfl⟩ := List.mem_map.mp (List.mem_filter.mp hother).1
      exact .inr ⟨k, hk, rfl⟩
    · contradiction

namespace Chart

variable {job : ChartJob} {table : Table} {labels : LabelValues} {allSeries : Bool}

theorem mem_columnWalk_of_missing {file column : String} {available : List String}
    (hbuild : (build job table labels allSeries).result =
      .error (.missingColumn file column available)) :
    column ∈ columnWalk (columnPairs job table allSeries) ∧ column ∉ table.headers := by
  cases hload : ((columnPairs job table allSeries).mapM (loadSeries table)).result with
  | error e =>
      rw [result_build_of_error hload] at hbuild
      obtain rfl := Except.error.inj hbuild
      obtain ⟨before, name, after, hwalk, _, hname⟩ := loadAll_eq_error_iff.mp hload
      obtain ⟨rfl, hmissing⟩ := Table.not_mem_headers_of_column hname
      rw [hwalk]
      exact ⟨List.mem_append_right _ (List.mem_cons_self ..), hmissing⟩
  | ok series =>
      rw [result_build_of_ok hload] at hbuild
      split_ifs at hbuild <;> simp at hbuild

theorem own_column_of_missing (hplain : table.PlainlyNumbered) {file column : String}
    {available : List String}
    (hbuild : (build job table labels allSeries).result =
      .error (.missingColumn file column available)) :
    column = job.xColumn ∨ column = job.yColumn := by
  obtain ⟨hwalk, hmissing⟩ := mem_columnWalk_of_missing hbuild
  obtain ⟨columns, hcolumns, hcolumn⟩ := mem_columnWalk.mp hwalk
  obtain rfl | ⟨k, hk, rfl⟩ := mem_columnPairs hcolumns
  · exact hcolumn
  · obtain ⟨hx, hy⟩ := (Table.plainlyNumbered_iff.mp hplain k).mp hk
    obtain rfl | rfl := hcolumn
    · exact absurd hx hmissing
    · exact absurd hy hmissing

end Chart

/--
The numbers found are increasing, and they are those with a y column and some x column.  They are
the numbers of which both plain names are there exactly if the table is plainly numbered, and
then a chart can miss the job's own columns only.
-/
theorem Table.seriesIndices_exact_iff (table : Table) :
    table.seriesIndices.Pairwise (· < ·) ∧
    (∀ k, k ∈ table.seriesIndices ↔
      yColumnName k ∈ table.headers ∧ ∃ header ∈ table.headers, IsXColumn k header) ∧
    ((∀ k, k ∈ table.seriesIndices ↔
      xColumnName k ∈ table.headers ∧ yColumnName k ∈ table.headers) ↔ table.PlainlyNumbered) ∧
    (table.PlainlyNumbered → ∀ job labels allSeries file column available,
      (Chart.build job table labels allSeries).result =
        .error (.missingColumn file column available) →
      column = job.xColumn ∨ column = job.yColumn) := by
  refine ⟨table.pairwise_seriesIndices, fun k => mem_seriesIndices_iff,
    plainlyNumbered_iff.symm, ?_⟩
  intro hplain job labels allSeries file column available hbuild
  exact Chart.own_column_of_missing hplain hbuild

/-- The x column of the second pair has a zero before its number. -/
def Table.padded : Table where
  source := "rhm-insert.txt"
  headers := ["x_0", "y_0", "x_01", "y_1"]
  rows := [["1", "2", "3", "4"]]

theorem Table.seriesIndices_padded :
    ¬ (1 ∈ Table.padded.seriesIndices ↔
      xColumnName 1 ∈ Table.padded.headers ∧ yColumnName 1 ∈ Table.padded.headers) ∧
    (Chart.build .insert Table.padded ⟨1000, 500⟩ true).result =
      .error (.missingColumn "rhm-insert.txt" "x_1" ["x_0", "y_0", "x_01", "y_1"]) := by
  constructor
  · decide +kernel
  · decide +kernel

end ThroughputPlot
