import ThroughputPlot.Chart
import Mathlib.Tactic

/-!
# The columns of a table

A name stands for the first column that has it.  Where every row is as long as the header, the
column can be had as numbers if each of its cells is a number literal, and otherwise the first
row whose cell is none is to blame.
-/

namespace ThroughputPlot

namespace Table

/-- Every row has one cell for each column. -/
def Rectangular (table : Table) : Prop :=
  ∀ cells ∈ table.rows, cells.length = table.headers.length

/-- The first column of a name. -/
def IsColumn (table : Table) (name : String) (index : ℕ) : Prop :=
  table.headers[index]? = some name ∧ ∀ earlier < index, table.headers[earlier]? ≠ some name

end Table

/-- The number that a row has in a column. -/
def numberAt? (index : ℕ) (cells : List String) : Option Binary64 :=
  cells[index]?.bind fun cell => Binary64.ofLiteral? cell.toList

/-- Like `numberAt?`, but a cell that is missing reads as `nan`. -/
def readAt? (index : ℕ) (cells : List String) : Option Binary64 :=
  Binary64.ofLiteral? (cells.getD index "nan").toList

namespace Table

def Numeric (table : Table) (name : String) : Prop :=
  ∃ index, table.IsColumn name index ∧ ∀ cells ∈ table.rows, ∃ x, numberAt? index cells = some x

inductive ColumnFault (table : Table) (name : String) : PlotError → Prop where
  | missing (hname : name ∉ table.headers) :
      ColumnFault table name (.missingColumn table.source name table.headers)
  | notNumber {index : ℕ} {before after : List (List String)} {cells : List String} {cell : String}
      (hcolumn : table.IsColumn name index) (hrows : table.rows = before ++ cells :: after)
      (hbefore : ∀ earlier ∈ before, ∃ x, numberAt? index earlier = some x)
      (hcell : cells[index]? = some cell) (hliteral : Binary64.ofLiteral? cell.toList = none) :
      ColumnFault table name (.invalidNumber table.source name (before.length + 1) cell)

end Table

/-! ## Cells as numbers -/

theorem numbersFrom_eq_ok_iff {file column : String} {row : ℕ} {cells : List String}
    {xs : List Binary64} :
    numbersFrom file column row cells = .ok xs ↔
      cells.map (fun cell => Binary64.ofLiteral? cell.toList) = xs.map some := by
  induction cells generalizing row xs with
  | nil => cases xs <;> simp [numbersFrom]
  | cons cell rest ih =>
      rw [numbersFrom]
      cases hcell : Binary64.ofLiteral? cell.toList with
      | none => cases xs <;> simp [hcell]
      | some x =>
          cases hrest : numbersFrom file column (row + 1) rest with
          | error e => cases xs <;> simp [Except.map, hcell, ← @ih (row + 1), hrest]
          | ok numbers => cases xs <;> simp [Except.map, hcell, ← @ih (row + 1), hrest]

theorem exists_cons_eq_append_cons_iff {α : Type} {first : α} {rest : List α}
    {split : List α → α → List α → Prop} :
    (∃ before x after, first :: rest = before ++ x :: after ∧ split before x after) ↔
      split [] first rest ∨
        ∃ before x after, rest = before ++ x :: after ∧ split (first :: before) x after := by
  constructor
  · rintro ⟨before, x, after, hlist, hsplit⟩
    cases before with
    | nil =>
        obtain ⟨rfl, rfl⟩ := List.cons.inj hlist
        exact .inl hsplit
    | cons earlier before =>
        obtain ⟨rfl, rfl⟩ := List.cons.inj hlist
        exact .inr ⟨before, x, after, rfl, hsplit⟩
  · rintro (hsplit | ⟨before, x, after, rfl, hsplit⟩)
    · exact ⟨[], first, rest, rfl, hsplit⟩
    · exact ⟨first :: before, x, after, rfl, hsplit⟩

theorem numbersFrom_eq_error_iff {file column : String} {row : ℕ} {cells : List String}
    {e : PlotError} :
    numbersFrom file column row cells = .error e ↔
      ∃ before cell after, cells = before ++ cell :: after ∧
        (∀ earlier ∈ before, ∃ x, Binary64.ofLiteral? earlier.toList = some x) ∧
        Binary64.ofLiteral? cell.toList = none ∧
        e = .invalidNumber file column (row + before.length) cell := by
  induction cells generalizing row with
  | nil => simp [numbersFrom]
  | cons first rest ih =>
      rw [numbersFrom, exists_cons_eq_append_cons_iff]
      cases hfirst : Binary64.ofLiteral? first.toList with
      | none => simp [hfirst, eq_comm]
      | some x =>
          have hmap : (numbersFrom file column (row + 1) rest).map (x :: ·) = .error e ↔
              numbersFrom file column (row + 1) rest = .error e := by
            cases numbersFrom file column (row + 1) rest <;> simp [Except.map]
          have hrow : ∀ before : List String,
              row + 1 + before.length = row + (first :: before).length := by
            intro before
            rw [List.length_cons, Nat.add_right_comm, Nat.add_assoc]
          simp [hmap, ih, hfirst, hrow]

theorem exists_map_eq_map_some_iff {α β : Type} {f : α → Option β} {xs : List α} :
    (∃ ys : List β, xs.map f = ys.map some) ↔ ∀ x ∈ xs, ∃ y, f x = some y := by
  induction xs with
  | nil => exact ⟨by simp, fun _ => ⟨[], rfl⟩⟩
  | cons x xs ih =>
      rw [List.forall_mem_cons, ← ih]
      constructor
      · rintro ⟨ys, hys⟩
        cases ys with
        | nil => contradiction
        | cons y ys =>
            obtain ⟨hy, hrest⟩ := List.cons.inj hys
            exact ⟨⟨y, hy⟩, ys, hrest⟩
      · rintro ⟨⟨y, hy⟩, ys, hys⟩
        exact ⟨y :: ys, congrArg₂ List.cons hy hys⟩

namespace Table

variable {table : Table} {name : String}

/-! ## Columns by their names -/

theorem idxOf?_eq_some_iff_isColumn {index : ℕ} :
    table.headers.idxOf? name = some index ↔ table.IsColumn name index := by
  rw [List.idxOf?_eq_some_iff]
  constructor
  · rintro ⟨hindex, hname, hfirst⟩
    refine ⟨by rw [List.getElem?_eq_getElem hindex, hname], ?_⟩
    intro earlier hearlier
    rw [List.getElem?_eq_getElem (hearlier.trans hindex)]
    exact fun heq => hfirst earlier hearlier (Option.some.inj heq)
  · rintro ⟨hname, hfirst⟩
    obtain ⟨hindex, hget⟩ := List.getElem?_eq_some_iff.mp hname
    refine ⟨hindex, hget, ?_⟩
    intro earlier hearlier heq
    apply hfirst earlier hearlier
    rw [List.getElem?_eq_getElem (hearlier.trans hindex), heq]

theorem IsColumn.lt_length {index : ℕ} (hcolumn : table.IsColumn name index) :
    index < table.headers.length :=
  (List.getElem?_eq_some_iff.mp hcolumn.1).1

theorem column_eq_of_not_mem (hname : name ∉ table.headers) :
    table.column name = .error (.missingColumn table.source name table.headers) := by
  rw [column, List.idxOf?_eq_none_iff.mpr hname]

theorem column_eq_of_isColumn {index : ℕ} (hcolumn : table.IsColumn name index) :
    table.column name = numbersFrom table.source name 1 (table.cells index) := by
  rw [column, idxOf?_eq_some_iff_isColumn.mpr hcolumn]

theorem not_mem_or_isColumn (table : Table) (name : String) :
    name ∉ table.headers ∨ ∃ index, table.IsColumn name index := by
  cases hindex : table.headers.idxOf? name with
  | none => exact .inl (List.idxOf?_eq_none_iff.mp hindex)
  | some index => exact .inr ⟨index, idxOf?_eq_some_iff_isColumn.mp hindex⟩

theorem IsColumn.unique {index index' : ℕ} (hcolumn : table.IsColumn name index)
    (hcolumn' : table.IsColumn name index') : index = index' := by
  rw [← idxOf?_eq_some_iff_isColumn] at hcolumn hcolumn'
  exact Option.some.inj (hcolumn.symm.trans hcolumn')

theorem not_mem_headers_of_column {file missing : String} {available : List String}
    (hcolumn : table.column name = .error (.missingColumn file missing available)) :
    missing = name ∧ name ∉ table.headers := by
  obtain hname | ⟨index, hindex⟩ := table.not_mem_or_isColumn name
  · rw [column_eq_of_not_mem hname] at hcolumn
    obtain ⟨_, rfl, _⟩ := PlotError.missingColumn.inj (Except.error.inj hcolumn)
    exact ⟨rfl, hname⟩
  · rw [column_eq_of_isColumn hindex, numbersFrom_eq_error_iff] at hcolumn
    obtain ⟨_, _, _, _, _, _, heq⟩ := hcolumn
    contradiction

theorem column_eq_ok_iff {xs : List Binary64} :
    table.column name = .ok xs ↔
      ∃ index, table.IsColumn name index ∧ table.rows.map (readAt? index) = xs.map some := by
  have hnumbers : ∀ index, table.IsColumn name index →
      (table.column name = .ok xs ↔ table.rows.map (readAt? index) = xs.map some) := by
    intro index hindex
    rw [column_eq_of_isColumn hindex, numbersFrom_eq_ok_iff, cells, List.map_map]
    rfl
  constructor
  · intro hcolumn
    obtain hname | ⟨index, hindex⟩ := table.not_mem_or_isColumn name
    · rw [column_eq_of_not_mem hname] at hcolumn
      contradiction
    · exact ⟨index, hindex, (hnumbers index hindex).mp hcolumn⟩
  · rintro ⟨index, hindex, hmap⟩
    exact (hnumbers index hindex).mpr hmap

/-! ## Columns of a rectangular table -/

theorem Rectangular.getElem?_eq (hrect : table.Rectangular) {index : ℕ}
    (hindex : index < table.headers.length) {cells : List String} (hcells : cells ∈ table.rows) :
    cells[index]? = some (cells.getD index "nan") := by
  have hlength : index < cells.length := by rwa [hrect cells hcells]
  rw [List.getD_eq_getElem?_getD, List.getElem?_eq_getElem hlength]
  rfl

theorem Rectangular.numberAt?_eq (hrect : table.Rectangular) {index : ℕ}
    (hindex : index < table.headers.length) {cells : List String} (hcells : cells ∈ table.rows) :
    numberAt? index cells = Binary64.ofLiteral? (cells.getD index "nan").toList := by
  rw [numberAt?, hrect.getElem?_eq hindex hcells]
  rfl

theorem Rectangular.column_eq_ok_iff (hrect : table.Rectangular) {xs : List Binary64} :
    table.column name = .ok xs ↔
      ∃ index, table.IsColumn name index ∧ table.rows.map (numberAt? index) = xs.map some := by
  have hrows : ∀ index, table.IsColumn name index →
      table.rows.map (numberAt? index) = table.rows.map (readAt? index) := by
    intro index hindex
    apply List.map_congr_left
    intro cells hcells
    exact hrect.numberAt?_eq hindex.lt_length hcells
  rw [Table.column_eq_ok_iff]
  constructor
  · rintro ⟨index, hindex, hmap⟩
    exact ⟨index, hindex, (hrows index hindex).trans hmap⟩
  · rintro ⟨index, hindex, hmap⟩
    exact ⟨index, hindex, (hrows index hindex).symm.trans hmap⟩

theorem Rectangular.exists_column_eq_ok_iff (hrect : table.Rectangular) :
    (∃ xs, table.column name = .ok xs) ↔ table.Numeric name := by
  constructor
  · rintro ⟨xs, hxs⟩
    obtain ⟨index, hindex, hmap⟩ := hrect.column_eq_ok_iff.mp hxs
    exact ⟨index, hindex, exists_map_eq_map_some_iff.mp ⟨xs, hmap⟩⟩
  · rintro ⟨index, hindex, hall⟩
    obtain ⟨xs, hmap⟩ := exists_map_eq_map_some_iff.mpr hall
    exact ⟨xs, hrect.column_eq_ok_iff.mpr ⟨index, hindex, hmap⟩⟩

theorem Rectangular.column_eq_error_iff (hrect : table.Rectangular) {e : PlotError} :
    table.column name = .error e ↔ table.ColumnFault name e := by
  constructor
  · intro hcolumn
    obtain hname | ⟨index, hindex⟩ := table.not_mem_or_isColumn name
    · rw [column_eq_of_not_mem hname] at hcolumn
      obtain rfl := Except.error.inj hcolumn
      exact .missing hname
    · rw [column_eq_of_isColumn hindex, numbersFrom_eq_error_iff] at hcolumn
      obtain ⟨_, cell, _, hcells, hbefore, hcell, rfl⟩ := hcolumn
      obtain ⟨before, rest, hrows, rfl, hrest⟩ := List.map_eq_append_iff.mp hcells
      obtain ⟨row, after, rfl, rfl, _⟩ := List.map_eq_cons_iff.mp hrest
      have hrow : row ∈ table.rows := by rw [hrows]; simp
      rw [List.length_map, Nat.add_comm 1]
      refine .notNumber hindex hrows ?_ (hrect.getElem?_eq hindex.lt_length hrow) hcell
      intro earlier hearlier
      have hmem : earlier ∈ table.rows := by rw [hrows]; exact List.mem_append_left _ hearlier
      rw [hrect.numberAt?_eq hindex.lt_length hmem]
      exact hbefore _ (List.mem_map_of_mem hearlier)
  · intro hfault
    cases hfault with
    | missing hname => exact column_eq_of_not_mem hname
    | @notNumber index before after row cell hindex hrows hbefore hcell hliteral =>
        have hrow : row ∈ table.rows := by rw [hrows]; simp
        obtain rfl : cell = row.getD index "nan" :=
          Option.some.inj (hcell.symm.trans (hrect.getElem?_eq hindex.lt_length hrow))
        rw [column_eq_of_isColumn hindex, numbersFrom_eq_error_iff, cells, hrows]
        refine ⟨before.map (·.getD index "nan"), row.getD index "nan",
          after.map (·.getD index "nan"), by simp, ?_, hliteral, ?_⟩
        · intro earlier hearlier
          obtain ⟨cells, hcells, rfl⟩ := List.mem_map.mp hearlier
          have hmem : cells ∈ table.rows := by rw [hrows]; exact List.mem_append_left _ hcells
          rw [← hrect.numberAt?_eq hindex.lt_length hmem]
          exact hbefore cells hcells
        · rw [List.length_map, Nat.add_comm 1]

end Table

end ThroughputPlot
