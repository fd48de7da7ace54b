import ThroughputPlot.Proofs.WrittenDocuments

/-!
# Written configurations

A configuration is written as the tables of its sections, if it has them, and one more item of the
charts for each job.  What is missing is left out, and so may be a column that is the default.  The
references in the text stay as they are if no variable is set for them, and then the text is read
as the configuration.
-/

namespace ThroughputPlot

open Toml (Entries IsBareName WrittenTables WrittenText WrittenValue document find? isRestReadable
  optional sections)

/-! ## Writing -/

/-- What is written under a key, if there is something to write. -/
def optionalEntry {α β : Type} (key : String) (write : α → β) : Option α → List (String × β)
  | none => []
  | some value => [(key, write value)]

namespace PathSection

def entries (paths : PathSection) : Entries :=
  optionalEntry "input_dir" .string paths.inputDir ++
    optionalEntry "output_dir" .string paths.outputDir

end PathSection

namespace ImageSection

def sizeValue (n : UInt32) : Toml := .integer (some n.toNat)

def entries (image : ImageSection) : Entries :=
  optionalEntry "width" sizeValue image.width ++ optionalEntry "height" sizeValue image.height ++
    optionalEntry "all_series" .boolean image.allSeries

end ImageSection

/-- A column is written, unless it is the default and left out. -/
inductive WrittenColumn (key default column : String) : Entries → Prop
  | given : WrittenColumn key default column [(key, .string column)]
  | omitted (h : column = default) : WrittenColumn key default column []

inductive ChartJob.WrittenAs (job : ChartJob) : Entries → Prop
  | mk {x y : Entries} (hx : WrittenColumn "x_column" defaultXColumn job.xColumn x)
      (hy : WrittenColumn "y_column" defaultYColumn job.yColumn y) :
      WrittenAs job ([("name", .string job.name), ("input", .string job.input),
        ("output", .string job.output)] ++ x ++ y ++ [("x_label", .string job.xLabel),
        ("y_label", .string job.yLabel)] ++ optionalEntry "title" .string job.title)

namespace Config

def tables (config : Config) : List (String × Entries) :=
  optionalEntry "paths" PathSection.entries config.paths ++
    optionalEntry "render" ImageSection.entries config.image

/-- The text writes the sections and then the charts in their order. -/
def Written (config : Config) (text : List Char) : Prop :=
  ∃ items, List.Forall₂ ChartJob.WrittenAs config.charts items ∧
    WrittenTables (sections config.tables "charts" items) text

end Config

/-! ## Keys -/

theorem keys_optionalEntry {α β : Type} (key : String) (write : α → β) (value : Option α) :
    ((optionalEntry key write value).map Prod.fst).Sublist [key] := by
  cases value with
  | none => exact List.nil_sublist _
  | some value => exact List.Sublist.refl _

theorem WrittenColumn.keys {key default column : String} {entries : Entries}
    (h : WrittenColumn key default column entries) : (entries.map Prod.fst).Sublist [key] := by
  cases h with
  | given => exact List.Sublist.refl _
  | omitted => exact List.nil_sublist _

theorem PathSection.keys_entries (paths : PathSection) :
    (paths.entries.map Prod.fst).Sublist fieldNames := by
  rw [entries, List.map_append]
  exact (keys_optionalEntry ..).append (keys_optionalEntry ..)

def ImageSection.fieldNames : List String := ["width", "height", "all_series"]

theorem ImageSection.keys_entries (image : ImageSection) :
    (image.entries.map Prod.fst).Sublist fieldNames := by
  rw [entries, List.map_append, List.map_append]
  exact ((keys_optionalEntry ..).append (keys_optionalEntry ..)).append (keys_optionalEntry ..)

theorem ChartJob.WrittenAs.keys {job : ChartJob} {entries : Entries}
    (h : job.WrittenAs entries) : (entries.map Prod.fst).Sublist fieldNames := by
  obtain ⟨hx, hy⟩ := h
  simp only [List.map_append]
  exact ((((List.Sublist.refl _).append hx.keys).append hy.keys).append
    (List.Sublist.refl _)).append (keys_optionalEntry ..)

theorem exists_of_mem_optionalEntry {α β : Type} {key : String} {write : α → β} {value : Option α}
    {entry : String × β} (h : entry ∈ optionalEntry key write value) :
    ∃ a, entry = (key, write a) := by
  cases value with
  | none => contradiction
  | some a => exact ⟨a, List.mem_singleton.mp h⟩

theorem Config.mem_tables {config : Config} {table : String × Entries} (h : table ∈ config.tables) :
    (∃ paths : PathSection, table = ("paths", paths.entries)) ∨
      ∃ image : ImageSection, table = ("render", image.entries) := by
  rcases List.mem_append.mp h with hpaths | himage
  · exact .inl (exists_of_mem_optionalEntry hpaths)
  · exact .inr (exists_of_mem_optionalEntry himage)

namespace Config

theorem exists_lines_paths (paths : PathSection) :
    ∃ lines, Toml.WrittenEntries paths.entries lines := by
  have hnames : ∀ key ∈ PathSection.fieldNames, IsBareName key := by decide
  refine Toml.exists_writtenEntries (fun key hkey => hnames key (paths.keys_entries.subset hkey)) ?_
  obtain ⟨inputDir, outputDir⟩ := paths
  cases inputDir <;> cases outputDir <;>
    simp [PathSection.entries, optionalEntry, Toml.exists_writtenString]

theorem exists_lines_image (image : ImageSection) :
    ∃ lines, Toml.WrittenEntries image.entries lines := by
  have hnames : ∀ key ∈ ImageSection.fieldNames, IsBareName key := by decide
  have hsize (n : UInt32) : ∃ written, WrittenValue (ImageSection.sizeValue n) written :=
    ⟨_, .size n.toNat⟩
  have hswitch (value : Bool) : ∃ written, WrittenValue (.boolean value) written :=
    ⟨_, .boolean value⟩
  refine Toml.exists_writtenEntries (fun key hkey => hnames key (image.keys_entries.subset hkey)) ?_
  obtain ⟨width, height, allSeries⟩ := image
  cases width <;> cases height <;> cases allSeries <;>
    simp [ImageSection.entries, optionalEntry, hsize, hswitch]

theorem exists_lines_job (job : ChartJob) :
    ∃ entries, job.WrittenAs entries ∧ ∃ lines, Toml.WrittenEntries entries lines := by
  have hnames : ∀ key ∈ ChartJob.fieldNames, IsBareName key := by decide
  have hjob : job.WrittenAs _ := .mk .given .given
  refine ⟨_, hjob, ?_⟩
  refine Toml.exists_writtenEntries (fun key hkey => hnames key (hjob.keys.subset hkey)) ?_
  cases job.title <;> simp [optionalEntry, Toml.exists_writtenString]

theorem exists_items (jobs : List ChartJob) :
    ∃ items, List.Forall₂ ChartJob.WrittenAs jobs items ∧
      ∀ entries ∈ items, ∃ lines, Toml.WrittenEntries entries lines := by
  induction jobs with
  | nil => exact ⟨[], .nil, by simp⟩
  | cons job jobs ih =>
      obtain ⟨entries, hjob, hlines⟩ := exists_lines_job job
      obtain ⟨items, hjobs, hitems⟩ := ih
      exact ⟨entries :: items, .cons hjob hjobs, List.forall_mem_cons.mpr ⟨hlines, hitems⟩⟩

theorem exists_written (config : Config) : ∃ text, config.Written text := by
  have hpaths : IsBareName "paths" := by decide
  have hrender : IsBareName "render" := by decide
  have hcharts : IsBareName "charts" := by decide
  obtain ⟨items, hjobs, hitems⟩ := exists_items config.charts
  have htext : ∃ text, WrittenTables (sections config.tables "charts" items) text := by
    apply Toml.exists_writtenTables
    intro table htable
    rcases List.mem_append.mp htable with htable | htable
    · obtain ⟨named, hnamed, rfl⟩ := List.mem_map.mp htable
      rcases mem_tables hnamed with ⟨paths, rfl⟩ | ⟨image, rfl⟩
      · exact ⟨hpaths, exists_lines_paths paths⟩
      · exact ⟨hrender, exists_lines_image image⟩
    · obtain ⟨entries, hentries, rfl⟩ := List.mem_map.mp htable
      exact ⟨hcharts, hitems entries hentries⟩
  obtain ⟨text, htext⟩ := htext
  exact ⟨text, items, hjobs, htext⟩

end Config

end ThroughputPlot
