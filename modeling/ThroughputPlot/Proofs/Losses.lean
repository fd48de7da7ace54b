import ThroughputPlot.Proofs.InBounds
import Mathlib.Data.List.TakeWhile

/-!
# What the log says was lost

A table and a chart leave data out in two places.  A row that is too short is filled up when the
table is read, and a row without two finite numbers gives no point when a series is loaded.  Both
are warned about: the first once for each such row, the second once for each series that has such
rows, with their number.  Nothing else is warned about, so that the warnings of a chart add up to
what is missing in it.
-/

namespace ThroughputPlot

/-! ## The entries of a report -/

namespace Report

variable {α β : Type}

@[simp] theorem entries_pure (a : α) : (pure a : Report α).entries = [] := rfl

@[simp] theorem entries_fail (e : PlotError) : (fail e : Report α).entries = [] := rfl

@[simp] theorem entries_ofExcept (result : Except PlotError α) :
    (ofExcept result).entries = [] := rfl

@[simp] theorem entries_log (level : Log.Level) (scope : Log.Scope) (message : String) :
    (log level scope message).entries = [⟨level, scope, message⟩] := rfl

/-- What comes after a failure is not written. -/
theorem entries_bind (r : Report α) (next : α → Report β) :
    (r >>= next).entries = r.entries ++
      match r.result with
      | .ok a => (next a).entries
      | .error _ => [] := by
  cases h : r.result with
  | error e => simp [bind_of_error h]
  | ok a => simp [bind_of_ok h]

@[simp] theorem entries_map (f : α → β) (r : Report α) : (f <$> r).entries = r.entries := by
  rw [← bind_pure_comp, entries_bind]
  cases r.result <;> simp

theorem entries_bind_of_ok {r : Report α} {a : α} (h : r.result = .ok a) (next : α → Report β) :
    (r >>= next).entries = r.entries ++ (next a).entries := by
  rw [bind_of_ok h]

theorem entries_mapM {f : α → Report β} {xs : List α} {ys : List β}
    (h : (xs.mapM f).result = .ok ys) :
    (xs.mapM f).entries = xs.flatMap fun x => (f x).entries := by
  induction xs generalizing ys with
  | nil => rfl
  | cons x xs ih =>
      rw [result_mapM_eq_ok_iff, List.forall₂_cons_left_iff] at h
      obtain ⟨y, rest, hx, hxs, rfl⟩ := h
      have hrest := result_mapM_eq_ok_iff.mpr hxs
      rw [List.mapM_cons, entries_bind_of_ok hx, entries_bind_of_ok hrest, ih hrest]
      simp

end Report

/-! ## Rows that are too short -/

def shortRowEntry (source : String) (width row found : ℕ) : Log.Entry :=
  ⟨.warn, .table,
    s!"⚠️ {source}: row {row} has {found} of {width} fields, missing values read as nan"⟩

/-- The warnings about rows that are too short; `row` is the number of the first of the rows. -/
def shortRowEntries (source : String) (width row : ℕ) (rows : List (List String)) :
    List Log.Entry :=
  ((rows.zipIdx row).filter fun numbered => numbered.1.length < width).map fun numbered =>
    shortRowEntry source width numbered.2 numbered.1.length

theorem shortRowEntries_cons (source : String) (width row : ℕ) (cells : List String)
    (rest : List (List String)) :
    shortRowEntries source width row (cells :: rest) =
      (if cells.length < width then [shortRowEntry source width row cells.length] else []) ++
        shortRowEntries source width (row + 1) rest := by
  by_cases hshort : cells.length < width <;> simp [shortRowEntries, hshort]

theorem entries_fillRows_cons (source : String) (width row : ℕ) (cells : List String)
    (rest : List (List String)) :
    (fillRows source width row (cells :: rest)).entries =
      if width < cells.length then []
      else (if cells.length < width then [shortRowEntry source width row cells.length] else []) ++
        (fillRows source width (row + 1) rest).entries := by
  by_cases hlong : width < cells.length
  · simp [fillRows, hlong, Report.entries_bind]
  · by_cases hshort : cells.length < width <;>
      simp [fillRows, hlong, hshort, Report.entries_bind, shortRowEntry]

/-- The rows up to the first that is too long have their warnings, in order. -/
theorem entries_fillRows (source : String) (width row : ℕ) (rows : List (List String)) :
    (fillRows source width row rows).entries =
      shortRowEntries source width row (rows.takeWhile (·.length ≤ width)) := by
  induction rows generalizing row with
  | nil => rfl
  | cons cells rest ih =>
      rw [entries_fillRows_cons, ih]
      by_cases hlong : width < cells.length
      · rw [if_pos hlong, List.takeWhile_cons_of_neg (by simpa using hlong)]
        rfl
      · rw [if_neg hlong, List.takeWhile_cons_of_pos (by simpa using hlong), shortRowEntries_cons]

theorem takeWhile_fits {width : ℕ} {rows : List (List String)}
    (hfits : ∀ cells ∈ rows, cells.length ≤ width) :
    rows.takeWhile (·.length ≤ width) = rows :=
  List.takeWhile_eq_self_iff.mpr (by simpa using hfits)

theorem takeWhile_fits_append {width : ℕ} {before after : List (List String)} {cells : List String}
    (hbefore : ∀ earlier ∈ before, earlier.length ≤ width) (hlong : width < cells.length) :
    (before ++ cells :: after).takeWhile (·.length ≤ width) = before := by
  rw [List.takeWhile_append_of_pos (by simpa using hbefore),
    List.takeWhile_cons_of_neg (by simpa using hlong), List.append_nil]

/-- Either all rows fit, or there is a first one that is too long. -/
theorem rows_fit_or_first_long (width : ℕ) (rows : List (List String)) :
    (∀ cells ∈ rows, cells.length ≤ width) ∨
      ∃ before cells after, rows = before ++ cells :: after ∧
        (∀ earlier ∈ before, earlier.length ≤ width) ∧ width < cells.length := by
  induction rows with
  | nil => exact .inl (by simp)
  | cons first rest ih =>
      by_cases hlong : width < first.length
      · exact .inr ⟨[], first, rest, rfl, by simp, hlong⟩
      · have hfirst : first.length ≤ width := Nat.not_lt.mp hlong
        rcases ih with hrest | ⟨before, cells, after, rfl, hbefore, hcells⟩
        · exact .inl (List.forall_mem_cons.mpr ⟨hfirst, hrest⟩)
        · exact .inr ⟨first :: before, cells, after, rfl,
            List.forall_mem_cons.mpr ⟨hfirst, hbefore⟩, hcells⟩

def parsedEntry (source : String) (columns rows : ℕ) : Log.Entry :=
  ⟨.debug, .table, s!"Parsed {source}: {columns} columns, {rows} rows"⟩

theorem Table.read_of_fillRows_ok {source : String} {text : List Char} {filled : List (List String)}
    (hfill : (fillRows source ((textRecords text).headD []).length 1 (textRecords text).tail).result =
      .ok filled) :
    (Table.read source text).result = .ok ⟨source, (textRecords text).headD [], filled⟩ ∧
      (Table.read source text).entries =
        (fillRows source ((textRecords text).headD []).length 1 (textRecords text).tail).entries ++
          [parsedEntry source ((textRecords text).headD []).length filled.length] := by
  unfold Table.read
  dsimp only
  generalize (textRecords text).headD [] = headers at *
  generalize (textRecords text).tail = rows at *
  constructor
  · simp [hfill, Except.bind, Except.map]
  · simp [Report.entries_bind, hfill, parsedEntry]

theorem Table.read_of_fillRows_error {source : String} {text : List Char} {e : PlotError}
    (hfill : (fillRows source ((textRecords text).headD []).length 1 (textRecords text).tail).result =
      .error e) :
    (Table.read source text).result = .error e ∧
      (Table.read source text).entries =
        (fillRows source ((textRecords text).headD []).length 1 (textRecords text).tail).entries := by
  unfold Table.read
  dsimp only
  generalize (textRecords text).headD [] = headers at *
  generalize (textRecords text).tail = rows at *
  constructor
  · simp [hfill, Except.bind]
  · simp [Report.entries_bind, hfill]

theorem Table.read_of_long {source : String} {text : List Char} {before after : List (List String)}
    {cells : List String} (hrows : (textRecords text).tail = before ++ cells :: after)
    (hbefore : ∀ earlier ∈ before, earlier.length ≤ ((textRecords text).headD []).length)
    (hlong : ((textRecords text).headD []).length < cells.length) :
    (Table.read source text).result =
        .error (.extraFields source (1 + before.length) ((textRecords text).headD []).length
          cells.length) ∧
      (Table.read source text).entries =
        shortRowEntries source ((textRecords text).headD []).length 1 before := by
  have hfill := @result_fillRows_of_long source _ before after cells hbefore hlong 1
  rw [← hrows] at hfill
  obtain ⟨hresult, hentries⟩ := read_of_fillRows_error hfill
  refine ⟨hresult, ?_⟩
  rw [hentries, entries_fillRows, hrows, takeWhile_fits_append hbefore hlong]

theorem Table.entries_read_of_ok {source : String} {text : List Char} {table : Table}
    (hread : (Table.read source text).result = .ok table) :
    (∀ cells ∈ (textRecords text).tail, cells.length ≤ ((textRecords text).headD []).length) ∧
      (Table.read source text).entries =
        shortRowEntries source ((textRecords text).headD []).length 1 (textRecords text).tail ++
          [parsedEntry source table.headers.length table.size] := by
  rcases rows_fit_or_first_long ((textRecords text).headD []).length (textRecords text).tail with
    hfits | ⟨before, cells, after, hrows, hbefore, hlong⟩
  · obtain ⟨hresult, hentries⟩ := read_of_fillRows_ok (result_fillRows_of_fits source hfits 1)
    rw [hresult] at hread
    obtain rfl := Except.ok.inj hread
    refine ⟨hfits, ?_⟩
    rw [hentries, entries_fillRows, takeWhile_fits hfits]
    rfl
  · rw [(read_of_long hrows hbefore hlong).1] at hread
    contradiction

theorem Table.entries_read_of_error {source : String} {text : List Char} {e : PlotError}
    (hread : (Table.read source text).result = .error e) :
    ∃ before cells after, (textRecords text).tail = before ++ cells :: after ∧
      (∀ earlier ∈ before, earlier.length ≤ ((textRecords text).headD []).length) ∧
      ((textRecords text).headD []).length < cells.length ∧
      e = .extraFields source (before.length + 1) ((textRecords text).headD []).length
        cells.length ∧
      (Table.read source text).entries =
        shortRowEntries source ((textRecords text).headD []).length 1 before := by
  rcases rows_fit_or_first_long ((textRecords text).headD []).length (textRecords text).tail with
    hfits | ⟨before, cells, after, hrows, hbefore, hlong⟩
  · rw [(read_of_fillRows_ok (result_fillRows_of_fits source hfits 1)).1] at hread
    contradiction
  · obtain ⟨hresult, hentries⟩ := read_of_long hrows hbefore hlong
    rw [hresult] at hread
    obtain rfl := Except.error.inj hread
    refine ⟨before, cells, after, hrows, hbefore, hlong, ?_, hentries⟩
    rw [Nat.add_comm]

/-! ## Points that are not finite -/

def lossEntry (table : Table) (columns : String × String) (lost : ℕ) : Log.Entry :=
  ⟨.warn, .chart,
    s!"⚠️ {table.source}: dropped {lost} non-finite points from {columns.1}/{columns.2}"⟩

theorem entries_loadSeries {table : Table} {columns : String × String} {series : Series}
    (hload : (loadSeries table columns).result = .ok series) :
    (loadSeries table columns).entries =
      if 0 < table.size - series.points.length then
        [lossEntry table columns (table.size - series.points.length)]
      else [] := by
  obtain ⟨xs, ys, hxs, hys, rfl⟩ := loadSeries_eq_ok_iff.mp hload
  unfold loadSeries
  rw [hxs, hys]
  by_cases hlost : ((xs.zip ys).filter isFinitePoint).length < table.size <;>
    simp [Report.entries_bind, hlost, lossEntry]

/-- The number of rows that have no point in a pair of columns. -/
def Table.Loses (table : Table) (columns : String × String) (lost : ℕ) : Prop :=
  ∃ x y, table.IsColumn columns.1 x ∧ table.IsColumn columns.2 y ∧
    lost = table.rows.countP fun cells => (pointAt? x y cells).isNone

theorem length_filterMap_add_countP {α β : Type} (f : α → Option β) (xs : List α) :
    (xs.filterMap f).length + xs.countP (fun x => (f x).isNone) = xs.length := by
  induction xs with
  | nil => rfl
  | cons x xs ih =>
      cases hx : f x with
      | none =>
          rw [List.filterMap_cons_none hx, List.countP_cons_of_pos (by simp [hx])]
          simp only [List.length_cons]
          omega
      | some y =>
          rw [List.filterMap_cons_some hx, List.countP_cons_of_neg (by simp [hx])]
          simp only [List.length_cons]
          omega

theorem Series.Shows.loses {series : Series} {table : Table} {columns : String × String}
    (hshows : series.Shows table columns) :
    table.Loses columns (table.size - series.points.length) := by
  obtain ⟨_, x, y, hx, hy, hpoints⟩ := hshows
  refine ⟨x, y, hx, hy, ?_⟩
  have hcount := length_filterMap_add_countP (pointAt? x y) table.rows
  rw [hpoints, Table.size]
  omega

namespace Chart

variable {job : ChartJob} {table : Table} {labels : LabelValues} {allSeries : Bool} {chart : Chart}

theorem entries_build (hbuild : (build job table labels allSeries).result = .ok chart) :
    (build job table labels allSeries).entries =
      (columnPairs job table allSeries).flatMap fun columns =>
        (loadSeries table columns).entries := by
  obtain ⟨series, hload, rfl, hx, hy⟩ := build_eq_ok_iff.mp hbuild
  have hall := Report.result_mapM_eq_ok_iff.mpr hload
  rw [build, Report.entries_bind_of_ok hall, Report.entries_mapM hall]
  have hcheck : ∀ axis range, (checkPlottable table axis range).entries = [] := by
    intro axis range
    unfold checkPlottable
    split <;> rfl
  simp only [Report.entries_bind, hcheck, Report.entries_pure, List.nil_append]
  split <;> [split; skip] <;> simp

end Chart

/-! ## What is lost altogether -/

/-- How many rows each pair of columns has lost. -/
structure Accounts (table : Table) (pairs : List (String × String)) (series : List Series)
    (losses : List ((String × String) × ℕ)) : Prop where
  columns_eq : losses.map Prod.fst = pairs
  loses : ∀ loss ∈ losses, table.Loses loss.1 loss.2
  kept : List.Forall₂ (fun loss drawn => drawn.points.length + loss.2 = table.size) losses series

def lossEntries (table : Table) (losses : List ((String × String) × ℕ)) : List Log.Entry :=
  (losses.filter (0 < ·.2)).map fun loss => lossEntry table loss.1 loss.2

theorem lossEntries_cons (table : Table) (loss : (String × String) × ℕ)
    (rest : List ((String × String) × ℕ)) :
    lossEntries table (loss :: rest) =
      (if 0 < loss.2 then [lossEntry table loss.1 loss.2] else []) ++ lossEntries table rest := by
  by_cases hlost : 0 < loss.2 <;> simp [lossEntries, hlost]

theorem exists_accounts {table : Table} (hrect : table.Rectangular)
    {pairs : List (String × String)} {series : List Series}
    (hload : List.Forall₂ (fun columns drawn => (loadSeries table columns).result = .ok drawn)
      pairs series) :
    ∃ losses, Accounts table pairs series losses ∧
      pairs.flatMap (fun columns => (loadSeries table columns).entries) =
        lossEntries table losses := by
  induction hload with
  | nil => exact ⟨[], ⟨rfl, by simp, .nil⟩, rfl⟩
  | @cons columns drawn pairs series hfirst _ ih =>
      obtain ⟨losses, ⟨hcolumns, hloses, hkept⟩, hentries⟩ := ih
      have hshows := (hrect.loadSeries_eq_ok_iff.mp hfirst).2.2
      have hle := length_points_of_loadSeries hfirst
      refine ⟨(columns, table.size - drawn.points.length) :: losses, ⟨?_, ?_, ?_⟩, ?_⟩
      · rw [List.map_cons, hcolumns]
      · exact List.forall_mem_cons.mpr ⟨hshows.loses, hloses⟩
      · exact .cons (Nat.add_sub_of_le hle) hkept
      · rw [List.flatMap_cons, hentries, entries_loadSeries hfirst, lossEntries_cons]

theorem sum_filter_pos (losses : List ((String × String) × ℕ)) :
    ((losses.filter (0 < ·.2)).map Prod.snd).sum = (losses.map Prod.snd).sum := by
  induction losses with
  | nil => rfl
  | cons loss rest ih =>
      by_cases hlost : 0 < loss.2
      · simp [hlost, ih]
      · have hzero : loss.2 = 0 := by omega
        simp [hzero, ih]

theorem sum_add_length_points {size : ℕ} {losses : List ((String × String) × ℕ)}
    {series : List Series}
    (hkept : List.Forall₂ (fun loss drawn => drawn.points.length + loss.2 = size) losses series) :
    (losses.map Prod.snd).sum + (Chart.points series).length = series.length * size := by
  induction hkept with
  | nil => simp [Chart.points]
  | @cons loss drawn losses series hfirst _ ih =>
      have hpoints : Chart.points (drawn :: series) = drawn.points ++ Chart.points series := rfl
      rw [List.map_cons, List.sum_cons, hpoints, List.length_append, List.length_cons,
        Nat.succ_mul]
      omega

/-- The warnings tell every loss.  A table that is read has a warning for each row that is too
short, in the order of the rows, and no other; where a row is too long these are the warnings of
the rows before it.  A chart that is built has a warning for each pair of columns that lost rows,
in the order of the series, and no other; what they tell and what is drawn add up to all rows of
all series. -/
theorem warnings_account_for_losses :
    (∀ source text,
      (∀ table, (Table.read source text).result = .ok table →
        (∀ cells ∈ (textRecords text).tail,
          cells.length ≤ ((textRecords text).headD []).length) ∧
        (Table.read source text).entries =
          shortRowEntries source ((textRecords text).headD []).length 1 (textRecords text).tail ++
            [parsedEntry source table.headers.length table.size]) ∧
      ∀ e, (Table.read source text).result = .error e →
        ∃ before cells after, (textRecords text).tail = before ++ cells :: after ∧
          (∀ earlier ∈ before, earlier.length ≤ ((textRecords text).headD []).length) ∧
          ((textRecords text).headD []).length < cells.length ∧
          e = .extraFields source (before.length + 1) ((textRecords text).headD []).length
            cells.length ∧
          (Table.read source text).entries =
            shortRowEntries source ((textRecords text).headD []).length 1 before) ∧
    ∀ job table labels allSeries chart, table.Rectangular →
      (Chart.build job table labels allSeries).result = .ok chart →
      ∃ losses, Accounts table (columnPairs job table allSeries) chart.series losses ∧
        (Chart.build job table labels allSeries).entries = lossEntries table losses ∧
        ((losses.filter (0 < ·.2)).map Prod.snd).sum + chart.pointCount =
          chart.series.length * table.size := by
  constructor
  · intro source text
    exact ⟨fun table hread => Table.entries_read_of_ok hread,
      fun e hread => Table.entries_read_of_error hread⟩
  · intro job table labels allSeries chart hrect hbuild
    obtain ⟨series, hload, hchart, -, -⟩ := Chart.build_eq_ok_iff.mp hbuild
    have hseries : chart.series = series := by rw [hchart]; rfl
    obtain ⟨losses, haccounts, hentries⟩ := exists_accounts hrect hload
    refine ⟨losses, ?_, ?_, ?_⟩
    · rwa [hseries]
    · rw [Chart.entries_build hbuild, hentries]
    · rw [sum_filter_pos, hseries, Chart.pointCount, hseries]
      exact sum_add_length_points haccounts.kept

/-- A text with two short rows, and a table that loses a point in each of two series. -/
theorem warnings_account_for_losses_uneven :
    (Table.read "rhm-insert.txt" "x_0 y_0\n1\n2 3\n\n7\n".toList).entries =
      [shortRowEntry "rhm-insert.txt" 2 1 1, shortRowEntry "rhm-insert.txt" 2 3 1,
        parsedEntry "rhm-insert.txt" 2 3] ∧
    ∃ chart losses, (Chart.build .churn Table.uneven ⟨1000, 500⟩ true).result = .ok chart ∧
      chart.pointCount = 4 ∧
      Accounts Table.uneven (columnPairs .churn Table.uneven true) chart.series losses ∧
      (Chart.build .churn Table.uneven ⟨1000, 500⟩ true).entries =
        lossEntries Table.uneven losses ∧
      ((losses.filter (0 < ·.2)).map Prod.snd).sum = 2 := by
  constructor
  · have hread : (Table.read "rhm-insert.txt" "x_0 y_0\n1\n2 3\n\n7\n".toList).result =
        .ok ⟨"rhm-insert.txt", ["x_0", "y_0"], [["1", "nan"], ["2", "3"], ["7", "nan"]]⟩ := by
      decide +kernel
    have hentries := ((warnings_account_for_losses.1 _ _).1 _ hread).2
    have hrecords : textRecords "x_0 y_0\n1\n2 3\n\n7\n".toList =
        [["x_0", "y_0"], ["1"], ["2", "3"], ["7"]] := by
      decide +kernel
    rw [hentries, hrecords]
    rfl
  · have hrect : Table.uneven.Rectangular := by simp [Table.Rectangular, Table.uneven]
    have hcounts : (Chart.build .churn Table.uneven ⟨1000, 500⟩ true).result.toOption.map
        (fun chart => (chart.pointCount, chart.series.length)) = some (4, 2) := by
      decide +kernel
    cases hbuild : (Chart.build .churn Table.uneven ⟨1000, 500⟩ true).result with
    | error e => simp [hbuild, Except.toOption] at hcounts
    | ok chart =>
        obtain ⟨losses, haccounts, hentries, hsum⟩ :=
          warnings_account_for_losses.2 _ _ _ _ _ hrect hbuild
        obtain ⟨hcount, hseries⟩ : chart.pointCount = 4 ∧ chart.series.length = 2 := by
          simpa [hbuild, Except.toOption] using hcounts
        have hsize : Table.uneven.size = 3 := rfl
        refine ⟨chart, losses, rfl, hcount, haccounts, hentries, ?_⟩
        rw [hcount, hseries, hsize] at hsum
        omega

end ThroughputPlot
