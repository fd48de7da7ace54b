import ThroughputPlot.Config.Reader
import ThroughputPlot.Proofs.OneString

/-!
# Text fields of a configuration

A configuration takes its directories and the fields of its jobs from strings of the document, each
from one of them.  A document with another string in one place therefore makes a configuration with
another text in one field, or the same configuration if nothing is read from that place.
-/

namespace ThroughputPlot

/-! ## Another text in a field -/

/-- The name of the field that a step leads to, where an array holds the fields in order. -/
def Toml.Step.field? (names : List String) : Step → Option String
  | .key name => some name
  | .index n => names[n]?

namespace PathSection

def fieldNames : List String := ["input_dir", "output_dir"]

def withField (text : String) (paths : PathSection) (name : String) : PathSection :=
  if name = "input_dir" then { paths with inputDir := some text }
  else if name = "output_dir" then { paths with outputDir := some text }
  else paths

def withText (text : String) (paths : PathSection) : List Toml.Step → PathSection
  | [step] => (step.field? fieldNames).elim paths (withField text paths)
  | _ => paths

end PathSection

namespace ChartJob

def withField (text : String) (job : ChartJob) (name : String) : ChartJob :=
  if name = "name" then { job with name := text }
  else if name = "input" then { job with input := text }
  else if name = "output" then { job with output := text }
  else if name = "x_column" then { job with xColumn := text }
  else if name = "y_column" then { job with yColumn := text }
  else if name = "x_label" then { job with xLabel := text }
  else if name = "y_label" then { job with yLabel := text }
  else if name = "title" then { job with title := some text }
  else job

def withText (text : String) (job : ChartJob) : List Toml.Step → ChartJob
  | [step] => (step.field? fieldNames).elim job (withField text job)
  | _ => job

def listWithText (text : String) (jobs : List ChartJob) : List Toml.Step → List ChartJob
  | .index n :: place => jobs.modify n (·.withText text place)
  | _ => jobs

end ChartJob

/-- The configuration with another text in the field that is read from a place of the document. -/
def Config.withText (text : String) (config : Config) : List Toml.Step → Config
  | .key "paths" :: place => { config with paths := config.paths.map (·.withText text place) }
  | .key "charts" :: place =>
    { config with charts := ChartJob.listWithText text config.charts place }
  | _ => config

namespace Toml

variable {s s' : String} {place : List Step} {x x' : Toml}

/-! ## Values that are passed over -/

theorem areReadable_eq_all (items : List Toml) : areReadable items = items.all isReadable := by
  induction items with
  | nil => rfl
  | cons item items ih => rw [areReadable, List.all_cons, ih]

theorem entriesReadable_eq_all (entries : Entries) :
    entriesReadable entries = entries.all (·.2.isReadable) := by
  induction entries with
  | nil => rfl
  | cons entry entries ih => rw [entriesReadable, List.all_cons, ih]

theorem tablesReadable_eq_all (items : List Entries) :
    tablesReadable items = items.all entriesReadable := by
  induction items with
  | nil => rfl
  | cons item items ih => rw [tablesReadable, List.all_cons, ih]

theorem ItemsDiffer.all_eq {α : Type} {n : ℕ} {differ : α → α → Prop} {items items' : List α}
    {holds : α → Bool} (hitems : ItemsDiffer n differ items items')
    (hholds : ∀ item item', differ item item' → holds item' = holds item) :
    items'.all holds = items.all holds := by
  obtain ⟨before, item, item', after, rfl, rfl, -, hdiffer⟩ := hitems
  rw [List.all_append, List.all_append, List.all_cons, List.all_cons, hholds _ _ hdiffer]

theorem EntriesDiffer.all_eq {key : String} {differ : Toml → Toml → Prop}
    {entries entries' : Entries} {holds : String × Toml → Bool}
    (hentries : EntriesDiffer key differ entries entries')
    (hholds : ∀ x x', differ x x' → holds (key, x') = holds (key, x)) :
    entries'.all holds = entries.all holds := by
  obtain ⟨-, hrelated⟩ := hentries
  induction hrelated with
  | nil => rfl
  | @cons entry entry' entries entries' hfirst _ ih =>
      obtain ⟨k, v⟩ := entry
      obtain ⟨k', v'⟩ := entry'
      obtain ⟨rfl, hkey, hsame⟩ := hfirst
      have hvalue : holds (k, v') = holds (k, v) := by
        by_cases hk : k = key
        · subst hk
          exact hholds _ _ (hkey rfl)
        · obtain rfl : v = v' := hsame hk
          rfl
      rw [List.all_cons, List.all_cons, hvalue, ih]

theorem isReadable_of_differ (hdiffer : DifferAt s s' place x x') :
    x'.isReadable = x.isReadable := by
  induction hlength : place.length using Nat.strong_induction_on generalizing place x x' with
  | _ length ih =>
      rcases hdiffer.shape with ⟨rfl, rfl, rfl⟩ | ⟨n, rest, items, items', rfl, rfl, rfl, hitems⟩ |
        ⟨key, rest, origin, entries, entries', rfl, rfl, rfl, hentries⟩ |
        ⟨n, key, rest, items, items', rfl, rfl, rfl, hitems⟩
      · rfl
      · rw [isReadable, isReadable, areReadable_eq_all, areReadable_eq_all]
        exact hitems.all_eq fun _ _ hitem => ih _ (by simp [← hlength]) hitem rfl
      · rw [isReadable, isReadable, entriesReadable_eq_all, entriesReadable_eq_all]
        exact hentries.all_eq fun _ _ hvalue => ih _ (by simp [← hlength]) hvalue rfl
      · rw [isReadable, isReadable, tablesReadable_eq_all, tablesReadable_eq_all]
        refine hitems.all_eq fun _ _ hentries => ?_
        rw [entriesReadable_eq_all, entriesReadable_eq_all]
        exact hentries.all_eq fun _ _ hvalue => ih _ (by simp [← hlength]) hvalue rfl

theorem isRestReadable_of_differ {key : String} {entries entries' : Entries} (known : List String)
    (hentries : EntriesDiffer key (DifferAt s s' place) entries entries') :
    isRestReadable known entries' = isRestReadable known entries := by
  rw [isRestReadable, isRestReadable, entriesReadable_eq_all, entriesReadable_eq_all,
    List.all_filter, List.all_filter]
  refine hentries.all_eq fun _ _ hvalue => ?_
  rw [isReadable_of_differ hvalue]

/-! ## Values that are read -/

theorem size?_of_differ (hdiffer : DifferAt s s' place x x') : x'.size? = x.size? := by
  rcases hdiffer.shape with ⟨-, rfl, rfl⟩ | ⟨_, _, _, _, -, rfl, rfl, -⟩ |
    ⟨_, _, _, _, _, -, rfl, rfl, -⟩ | ⟨_, _, _, _, _, -, rfl, rfl, -⟩ <;> rfl

theorem switch?_of_differ (hdiffer : DifferAt s s' place x x') : x'.switch? = x.switch? := by
  rcases hdiffer.shape with ⟨-, rfl, rfl⟩ | ⟨_, _, _, _, -, rfl, rfl, -⟩ |
    ⟨_, _, _, _, _, -, rfl, rfl, -⟩ | ⟨_, _, _, _, _, -, rfl, rfl, -⟩ <;> rfl

theorem text?_of_differ {given : String} (hdiffer : DifferAt s s' place x x')
    (htext : x.text? = some given) : place = [] ∧ x'.text? = some s' := by
  rcases hdiffer.shape with ⟨rfl, rfl, rfl⟩ | ⟨_, _, _, _, -, rfl, rfl, -⟩ |
    ⟨_, _, _, _, _, -, rfl, rfl, -⟩ | ⟨_, _, _, _, _, -, rfl, rfl, -⟩
  · exact ⟨rfl, rfl⟩
  all_goals contradiction

theorem field_of_differ (hdiffer : DifferAt s s' place x x') :
    (place = [] ∧ x.field = .text s ∧ x'.field = .text s') ∨
      (place ≠ [] ∧ x.field = .malformed ∧ x'.field = .malformed) := by
  rcases hdiffer.shape with ⟨rfl, rfl, rfl⟩ | ⟨_, _, _, _, rfl, rfl, rfl, -⟩ |
    ⟨_, _, _, _, _, rfl, rfl, rfl, -⟩ | ⟨_, _, _, _, _, rfl, rfl, rfl, -⟩
  · exact .inl ⟨rfl, rfl, rfl⟩
  all_goals exact .inr ⟨List.cons_ne_nil _ _, rfl, rfl⟩

/-- What is read from a value that differs is read again, up to a change. -/
theorem optional_of_differ {α : Type} {read : Toml → Option α} {change : α → α}
    {key : String} {differ : Toml → Toml → Prop} {entries entries' : Entries} (name : String)
    {given : Option α} (hentries : EntriesDiffer key differ entries entries')
    (hread : ∀ x x' y, differ x x' → read x = some y → read x' = some (change y))
    (hgiven : optional read (find? name entries) = some given) :
    optional read (find? name entries') =
      some (if name = key then given.map change else given) := by
  by_cases hname : name = key
  · subst hname
    obtain ⟨x, x', hx, hx', hdiffer⟩ := hentries.find?_key
    rw [hx] at hgiven
    obtain ⟨y, hy, rfl⟩ := Option.map_eq_some_iff.mp hgiven
    rw [hx', optional, hread x x' y hdiffer hy, if_pos rfl]
    rfl
  · rw [hentries.find?_of_ne hname, hgiven, if_neg hname]

theorem optional_text?_of_differ {key : String} {entries entries' : Entries} {given : Option String}
    (name : String) (hentries : EntriesDiffer key (DifferAt s s' place) entries entries')
    (hgiven : optional text? (find? name entries) = some given) :
    optional text? (find? name entries') =
      some (if key = name ∧ place = [] then some s' else given) := by
  by_cases hname : key = name
  · subst hname
    obtain ⟨x, x', hx, hx', hdiffer⟩ := hentries.find?_key
    rw [hx] at hgiven
    obtain ⟨text, htext, rfl⟩ := Option.map_eq_some_iff.mp hgiven
    obtain ⟨rfl, htext'⟩ := text?_of_differ hdiffer htext
    rw [hx', optional, htext']
    simp
  · have hsame := hentries.find?_of_ne (Ne.symm hname)
    rw [hsame, hgiven, if_neg fun hboth => hname hboth.1]

theorem optional_eq_of_differ {α : Type} {read : Toml → Option α} {key : String}
    {differ : Toml → Toml → Prop} {entries entries' : Entries}
    (hentries : EntriesDiffer key differ entries entries')
    (hread : ∀ x x', differ x x' → read x' = read x) (name : String) :
    optional read (find? name entries') = optional read (find? name entries) := by
  by_cases hname : name = key
  · subst hname
    obtain ⟨x, x', hx, hx', hdiffer⟩ := hentries.find?_key
    rw [hx, hx', optional, optional, hread x x' hdiffer]
  · rw [hentries.find?_of_ne hname]

theorem mapM_of_differ {α β : Type} {n : ℕ} {differ : α → α → Prop} {items items' : List α}
    {read : α → Option β} {change : β → β} {values : List β}
    (hitems : ItemsDiffer n differ items items')
    (hread : ∀ item item' y, differ item item' → read item = some y →
      read item' = some (change y)) (hvalues : items.mapM read = some values) :
    items'.mapM read = some (values.modify n change) := by
  obtain ⟨before, item, item', after, rfl, rfl, rfl, hdiffer⟩ := hitems
  induction before generalizing values with
  | nil =>
      rw [List.nil_append, List.mapM_cons] at hvalues
      obtain ⟨y, hy, htail⟩ := Option.bind_eq_some_iff.mp hvalues
      obtain ⟨ys, hys, heq⟩ := Option.bind_eq_some_iff.mp htail
      obtain rfl := Option.some.inj heq
      rw [List.nil_append, List.mapM_cons, hread _ _ y hdiffer hy]
      simp [hys]
  | cons first before ih =>
      rw [List.cons_append, List.mapM_cons] at hvalues
      obtain ⟨y, hy, htail⟩ := Option.bind_eq_some_iff.mp hvalues
      obtain ⟨ys, hys, heq⟩ := Option.bind_eq_some_iff.mp htail
      obtain rfl := Option.some.inj heq
      rw [List.cons_append, List.mapM_cons, ih hys]
      simp [hy]

end Toml

open Toml (DifferAt EntriesDiffer ItemsDiffer Entries Step find? isRestReadable optional
  isRestReadable_of_differ optional_of_differ)

variable {s s' : String} {place : List Step} {x x' : Toml}

/-! ## Sections -/

namespace PathSection

theorem ofToml?_table_eq_some_iff {origin : Toml.Origin} {entries : Entries}
    {paths : PathSection} :
    ofToml? (.table origin entries) = some paths ↔
      isRestReadable fieldNames entries = true ∧
        optional Toml.text? (find? "input_dir" entries) = some paths.inputDir ∧
        optional Toml.text? (find? "output_dir" entries) = some paths.outputDir := by
  obtain ⟨inputDir, outputDir⟩ := paths
  simp only [ofToml?, fieldNames]
  split
  next hrest =>
    simp [hrest, Option.bind_eq_some_iff]
  next hrest => simp [hrest]

theorem withText_key (paths : PathSection) (text key : String) (place : List Step) :
    paths.withText text (.key key :: place) =
      { inputDir := if key = "input_dir" ∧ place = [] then some text else paths.inputDir
        outputDir := if key = "output_dir" ∧ place = [] then some text else paths.outputDir } := by
  cases place with
  | nil =>
      by_cases hinput : key = "input_dir"
      · subst hinput
        rfl
      · simp only [withText, Step.field?, Option.elim_some, withField, if_neg hinput]
        split <;> simp_all
  | cons step place => simp [withText]

theorem ofToml?_of_differ {paths : PathSection} (hdiffer : DifferAt s s' place x x')
    (hpaths : ofToml? x = some paths) : ofToml? x' = some (paths.withText s' place) := by
  rcases hdiffer.shape with ⟨rfl, rfl, rfl⟩ | ⟨n, rest, items, items', rfl, rfl, rfl, hitems⟩ |
    ⟨key, rest, origin, entries, entries', rfl, rfl, rfl, hentries⟩ |
    ⟨n, key, rest, items, items', rfl, rfl, rfl, hitems⟩
  · contradiction
  · obtain ⟨before, item, item', after, rfl, rfl, rfl, hitem⟩ := hitems
    match before, after with
    | [], [] => contradiction
    | [], output :: after =>
      obtain ⟨inputDir, hinput, hrest⟩ := Option.bind_eq_some_iff.mp hpaths
      obtain ⟨outputDir, houtput, heq⟩ := Option.bind_eq_some_iff.mp hrest
      obtain ⟨rfl, hinput'⟩ := Toml.text?_of_differ hitem hinput
      obtain rfl := Option.some.inj heq
      simp [ofToml?, hinput', houtput]
      rfl
    | [input], after =>
      obtain ⟨inputDir, hinput, hrest⟩ := Option.bind_eq_some_iff.mp hpaths
      obtain ⟨outputDir, houtput, heq⟩ := Option.bind_eq_some_iff.mp hrest
      obtain ⟨rfl, houtput'⟩ := Toml.text?_of_differ hitem houtput
      obtain rfl := Option.some.inj heq
      simp [ofToml?, hinput, houtput']
      rfl
    | input :: output :: before, after =>
      have hsame :
          paths.withText s' (.index (input :: output :: before).length :: rest) = paths := by
        cases rest <;> rfl
      rw [hsame]
      exact hpaths
  · rw [ofToml?_table_eq_some_iff] at hpaths ⊢
    obtain ⟨hrest, hinput, houtput⟩ := hpaths
    refine ⟨(isRestReadable_of_differ _ hentries).trans hrest, ?_, ?_⟩
    · rw [withText_key]
      exact Toml.optional_text?_of_differ _ hentries hinput
    · rw [withText_key]
      exact Toml.optional_text?_of_differ _ hentries houtput
  · contradiction

end PathSection

theorem ImageSection.ofToml?_of_differ (hdiffer : DifferAt s s' place x x') :
    ofToml? x' = ofToml? x := by
  rcases hdiffer.shape with ⟨rfl, rfl, rfl⟩ | ⟨n, rest, items, items', rfl, rfl, rfl, hitems⟩ |
    ⟨key, rest, origin, entries, entries', rfl, rfl, rfl, hentries⟩ |
    ⟨n, key, rest, items, items', rfl, rfl, rfl, hitems⟩
  · rfl
  · obtain ⟨before, item, item', after, rfl, rfl, rfl, hitem⟩ := hitems
    have hsize := Toml.size?_of_differ hitem
    have hswitch := Toml.switch?_of_differ hitem
    match before, after with
    | [], [] => rfl
    | [], [_] => rfl
    | [], _ :: _ :: _ => simp only [ofToml?, List.nil_append, hsize]
    | [_], [] => rfl
    | [_], _ :: _ => simp only [ofToml?, List.cons_append, List.nil_append, hsize]
    | [_, _], _ => simp only [ofToml?, List.cons_append, List.nil_append, hswitch]
    | _ :: _ :: _ :: _, _ => rfl
  · have hsize := Toml.optional_eq_of_differ hentries fun _ _ => Toml.size?_of_differ
    have hswitch := Toml.optional_eq_of_differ hentries fun _ _ => Toml.switch?_of_differ
    simp only [ofToml?, isRestReadable_of_differ _ hentries, hsize, hswitch]
  · rfl

@[simp] theorem Field.required_text (text : String) : (Field.text text).required = some text := rfl

@[simp] theorem Field.withDefault_text (default text : String) :
    (Field.text text).withDefault default = some text := rfl

@[simp] theorem Field.optional_text (text : String) :
    (Field.text text).optional = some (some text) := rfl

namespace ChartJob

theorem ofFields?_eq_some_iff {field : String → Field} {job : ChartJob} :
    ofFields? field = some job ↔
      (field "name").required = some job.name ∧ (field "input").required = some job.input ∧
      (field "output").required = some job.output ∧
      (field "x_column").withDefault defaultXColumn = some job.xColumn ∧
      (field "y_column").withDefault defaultYColumn = some job.yColumn ∧
      (field "x_label").required = some job.xLabel ∧
      (field "y_label").required = some job.yLabel ∧ (field "title").optional = some job.title := by
  obtain ⟨name, input, output, xColumn, yColumn, xLabel, yLabel, title⟩ := job
  simp [ofFields?, Option.bind_eq_some_iff]

theorem withField_of_not_mem {name : String} (hname : name ∉ fieldNames) (text : String)
    (job : ChartJob) : job.withField text name = job := by
  simp only [fieldNames, List.mem_cons, List.not_mem_nil, or_false, not_or] at hname
  simp [withField, hname]

theorem ofFields?_update {field : String → Field} {job : ChartJob} (name text : String)
    (hjob : ofFields? field = some job) :
    ofFields? (Function.update field name (.text text)) = some (job.withField text name) := by
  rw [ofFields?_eq_some_iff] at hjob ⊢
  by_cases hname : name ∈ fieldNames
  · simp only [fieldNames, List.mem_cons, List.not_mem_nil, or_false] at hname
    rcases hname with rfl | rfl | rfl | rfl | rfl | rfl | rfl | rfl <;>
      simp [Function.update, withField, hjob]
  · rw [withField_of_not_mem hname]
    simp only [fieldNames, List.mem_cons, List.not_mem_nil, or_false, not_or] at hname
    simp [Function.update_of_ne, Ne.symm, hname, hjob]

theorem fieldOfEntries_of_differ {key : String} {entries entries' : Entries}
    (hentries : EntriesDiffer key (DifferAt s s' place) entries entries') :
    fieldOfEntries entries' =
      if place = [] then Function.update (fieldOfEntries entries) key (.text s')
      else fieldOfEntries entries := by
  obtain ⟨x, x', hx, hx', hdiffer⟩ := hentries.find?_key
  funext name
  by_cases hname : name = key
  · subst hname
    rcases Toml.field_of_differ hdiffer with ⟨rfl, -, hfield'⟩ | ⟨hplace, hfield, hfield'⟩
    · simp [fieldOfEntries, hx', hfield']
    · simp [fieldOfEntries, hx, hx', hplace, hfield, hfield']
  · have hsame : fieldOfEntries entries' name = fieldOfEntries entries name := by
      rw [fieldOfEntries, fieldOfEntries, hentries.find?_of_ne hname]
    split <;> simp [hsame, hname]

theorem ofEntries?_of_differ {key : String} {entries entries' : Entries} {job : ChartJob}
    (hentries : EntriesDiffer key (DifferAt s s' place) entries entries')
    (hjob : ofEntries? entries = some job) :
    ofEntries? entries' = some (job.withText s' (.key key :: place)) := by
  unfold ofEntries? at hjob ⊢
  split at hjob
  next hrest =>
    rw [isRestReadable_of_differ _ hentries, if_pos hrest, fieldOfEntries_of_differ hentries]
    cases place with
    | nil => exact ofFields?_update key s' hjob
    | cons step place => simpa [withText] using hjob
  · contradiction

theorem ofParts?_eq_some_iff {parts : List Field} {job : ChartJob} :
    ofParts? parts = some job ↔
      ∃ name input output xColumn yColumn xLabel yLabel title : Field,
        parts = [name, input, output, xColumn, yColumn, xLabel, yLabel, title] ∧
        name.required = some job.name ∧ input.required = some job.input ∧
        output.required = some job.output ∧ xColumn.required = some job.xColumn ∧
        yColumn.required = some job.yColumn ∧ xLabel.required = some job.xLabel ∧
        yLabel.required = some job.yLabel ∧ title.optional = some job.title := by
  obtain ⟨name, input, output, xColumn, yColumn, xLabel, yLabel, title⟩ := job
  unfold ofParts?
  split
  next => simp [Option.bind_eq_some_iff]
  next hother =>
    constructor
    · intro hnone
      contradiction
    · rintro ⟨_, _, _, _, _, _, _, _, hparts, -⟩
      exact absurd hparts (hother _ _ _ _ _ _ _ _)

theorem ofParts?_set {parts : List Field} {job : ChartJob} (n : ℕ) (text : String)
    (hjob : ofParts? parts = some job) :
    ofParts? (parts.set n (.text text)) = some (job.withText text [.index n]) := by
  obtain ⟨name, input, output, xColumn, yColumn, xLabel, yLabel, title, rfl, hjob'⟩ :=
    ofParts?_eq_some_iff.mp hjob
  by_cases hn : n < fieldNames.length
  · rw [ofParts?_eq_some_iff]
    simp only [fieldNames, List.length_cons, List.length_nil] at hn
    interval_cases n <;> simp [withText, Step.field?, fieldNames, withField, hjob']
  · rw [List.set_eq_of_length_le (by simpa [fieldNames] using hn), hjob, withText, Step.field?,
      List.getElem?_eq_none (by simpa using hn)]
    rfl

theorem map_field_of_differ {n : ℕ} {items items' : List Toml}
    (hitems : ItemsDiffer n (DifferAt s s' place) items items') :
    items'.map Toml.field =
      if place = [] then (items.map Toml.field).set n (.text s') else items.map Toml.field := by
  obtain ⟨before, item, item', after, rfl, rfl, rfl, hitem⟩ := hitems
  rcases Toml.field_of_differ hitem with ⟨rfl, -, hfield'⟩ | ⟨hplace, hfield, hfield'⟩
  · simp [hfield']
  · simp [hplace, hfield, hfield']

theorem ofToml?_of_differ {job : ChartJob} (hdiffer : DifferAt s s' place x x')
    (hjob : ofToml? x = some job) : ofToml? x' = some (job.withText s' place) := by
  rcases hdiffer.shape with ⟨rfl, rfl, rfl⟩ | ⟨n, rest, items, items', rfl, rfl, rfl, hitems⟩ |
    ⟨key, rest, origin, entries, entries', rfl, rfl, rfl, hentries⟩ |
    ⟨n, key, rest, items, items', rfl, rfl, rfl, hitems⟩
  · contradiction
  · rw [ofToml?, List.map_take] at hjob ⊢
    rw [map_field_of_differ hitems]
    cases rest with
    | nil =>
        rw [if_pos rfl, List.take_set]
        exact ofParts?_set n s' hjob
    | cons step rest => simpa [withText] using hjob
  · exact ofEntries?_of_differ hentries hjob
  · contradiction

theorem listOfToml?_of_differ {jobs : List ChartJob} (hdiffer : DifferAt s s' place x x')
    (hjobs : listOfToml? x = some jobs) :
    listOfToml? x' = some (listWithText s' jobs place) := by
  rcases hdiffer.shape with ⟨rfl, rfl, rfl⟩ | ⟨n, rest, items, items', rfl, rfl, rfl, hitems⟩ |
    ⟨key, rest, origin, entries, entries', rfl, rfl, rfl, hentries⟩ |
    ⟨n, key, rest, items, items', rfl, rfl, rfl, hitems⟩
  · contradiction
  · exact Toml.mapM_of_differ hitems (fun _ _ _ => ofToml?_of_differ) hjobs
  · contradiction
  · exact Toml.mapM_of_differ hitems (fun _ _ _ => ofEntries?_of_differ) hjobs

theorem listWithText_nil (text : String) (place : List Step) : listWithText text [] place = [] := by
  unfold listWithText
  split <;> simp

end ChartJob

/-! ## The configuration -/

namespace Config

theorem withText_key (config : Config) (text key : String) (place : List Step) :
    config.withText text (.key key :: place) =
      { paths := if "paths" = key then config.paths.map (·.withText text place) else config.paths
        image := config.image
        charts := if "charts" = key then ChartJob.listWithText text config.charts place
          else config.charts } := by
  by_cases hpaths : "paths" = key
  · subst hpaths
    rfl
  by_cases hcharts : "charts" = key
  · subst hcharts
    rfl
  rw [if_neg hpaths, if_neg hcharts, withText]
  · rintro _ ⟨⟩
    exact hpaths rfl
  · rintro _ ⟨⟩
    exact hcharts rfl

theorem ofEntries?_eq_some_iff {entries : Entries} {config : Config} :
    ofEntries? entries = some config ↔
      isRestReadable ["paths", "render", "charts"] entries = true ∧
        optional PathSection.ofToml? (find? "paths" entries) = some config.paths ∧
        optional ImageSection.ofToml? (find? "render" entries) = some config.image ∧
        ∃ charts, optional ChartJob.listOfToml? (find? "charts" entries) = some charts ∧
          charts.getD [] = config.charts := by
  obtain ⟨paths, image, charts⟩ := config
  unfold ofEntries?
  split
  next hrest => simp [hrest, Option.bind_eq_some_iff]
  next hrest => simp [hrest]

/-- A document with another string at one place makes the same configuration, but for the field that
is read from that place. -/
theorem ofEntries?_of_differ {key : String} {document document' : Entries} {config : Config}
    (hdocument : EntriesDiffer key (DifferAt s s' place) document document')
    (hconfig : ofEntries? document = some config) :
    ofEntries? document' = some (config.withText s' (.key key :: place)) := by
  rw [ofEntries?_eq_some_iff] at hconfig ⊢
  obtain ⟨hrest, hpaths, himage, charts, hcharts, hgiven⟩ := hconfig
  have hpaths' := optional_of_differ _ hdocument (fun _ _ _ => PathSection.ofToml?_of_differ) hpaths
  have himage' := Toml.optional_eq_of_differ hdocument
    (fun _ _ => ImageSection.ofToml?_of_differ) "render"
  have hcharts' := optional_of_differ _ hdocument (fun _ _ _ => ChartJob.listOfToml?_of_differ)
    hcharts
  rw [withText_key]
  refine ⟨(isRestReadable_of_differ _ hdocument).trans hrest, hpaths', himage'.trans himage, _,
    hcharts', ?_⟩
  split
  next hkey =>
    cases charts with
    | none => exact hgiven ▸ (ChartJob.listWithText_nil ..).symm
    | some jobs => exact hgiven ▸ rfl
  next hkey => exact hgiven

end Config

end ThroughputPlot
