import ThroughputPlot.Proofs.Checks
import ThroughputPlot.Proofs.TableColumns

/-!
# Valid settings and their first fault

Validation is a chain of checks.  A check accepts what is valid and names a fault in everything
else, and of two checks in a row the second is asked only about what the first accepts.  So the
whole chain accepts the settings that are valid in every respect, and of several faults it
reports the first: those of the settings before those of the charts, those of a chart before
those of the charts behind it, and repeated names and outputs last.
-/

namespace ThroughputPlot

namespace Check

/-- A check accepts exactly what is valid, and otherwise fails with the fault there is. -/
structure Decides (check : Check) (valid : Prop) (fault : PlotError → Prop) : Prop where
  ok_iff : check = .ok () ↔ valid
  error_iff : ∀ e, check = .error e ↔ fault e

variable {first second : Check} {valid valid' : Prop} {fault fault' : PlotError → Prop}

theorem Decides.congr (hdecides : Decides first valid fault) (hvalid : valid ↔ valid')
    (hfault : ∀ e, fault e ↔ fault' e) : Decides first valid' fault' where
  ok_iff := hdecides.ok_iff.trans hvalid
  error_iff := fun e => (hdecides.error_iff e).trans (hfault e)

theorem Decides.bind (hfirst : Decides first valid fault)
    (hsecond : Decides second valid' fault') :
    Decides (first >>= fun _ => second) (valid ∧ valid') (fun e => fault e ∨ valid ∧ fault' e) where
  ok_iff := by rw [bind_eq_ok_iff, hfirst.ok_iff, hsecond.ok_iff]
  error_iff := by
    intro e
    rw [← hfirst.error_iff, ← hsecond.error_iff, ← hfirst.ok_iff]
    cases first <;> simp [Bind.bind, Except.bind]

theorem decides_require (condition : Bool) (field value reason : String) :
    Decides (require condition field value reason) (condition = true)
      (fun e => condition = false ∧ e = .invalidValue field value reason) where
  ok_iff := require_eq_ok_iff
  error_iff := by
    intro e
    cases condition <;> simp [require, eq_comm]

/-! ## Single values -/

structure IsPath (value : String) : Prop where
  ne_empty : value ≠ ""
  nul_not_mem : '\x00' ∉ value.toList

inductive PathFault (field value : String) : PlotError → Prop where
  | empty (hempty : value = "") :
      PathFault field value (.invalidValue field value "Path cannot be empty")
  | nul (hnul : '\x00' ∈ value.toList) :
      PathFault field value (.invalidValue field value "Path contains null bytes")

theorem decides_path (field value : String) :
    Decides (path field value) (IsPath value) (PathFault field value) := by
  have hboth := (decides_require (!value.isEmpty) field value "Path cannot be empty").bind
    (decides_require (!value.toList.contains '\x00') field value "Path contains null bytes")
  refine hboth.congr ?_ fun e => ?_
  · rw [← hboth.ok_iff]
    exact path_eq_ok_iff.trans ⟨fun h => ⟨h.1, h.2⟩, fun h => ⟨h.1, h.2⟩⟩
  · constructor
    · rintro (⟨hempty, rfl⟩ | ⟨_, hnul, rfl⟩)
      · exact .empty (by simpa using hempty)
      · exact .nul (by simpa using hnul)
    · rintro (hempty | hnul)
      · simp [hempty]
      · have hne : value ≠ "" := by
          rintro rfl
          simp at hnul
        simp [hne, hnul]

def NotBlank (value : String) : Prop := ∃ c ∈ value.toList, Text.isBlank c = false

def blankError (field value : String) : PlotError :=
  .invalidValue field value "Value cannot be empty or whitespace-only"

theorem decides_nonBlank (field value : String) :
    Decides (nonBlank field value) (NotBlank value)
      (fun e => ¬ NotBlank value ∧ e = blankError field value) := by
  refine (decides_require _ field value _).congr ?_ fun e => ?_
  · simp [Text.isBlankText, NotBlank]
  · simp [Text.isBlankText, NotBlank, blankError]

/-- The extension of a file is png, in capital or small letters. -/
def IsPng (value : String) : Prop :=
  ∃ extension, Path.extension? value = some extension ∧ lowerCase extension = "png"

def unsupportedError (field value : String) (extension : List Char) : PlotError :=
  .invalidValue field value
    s!"Unsupported file extension: {String.ofList extension}. Allowed extensions: png"

inductive ExtensionFault (field value : String) : PlotError → Prop where
  | missing (hnone : Path.extension? value = none) :
      ExtensionFault field value
        (.invalidValue field value "File has no extension or invalid filename")
  | unsupported {extension : List Char} (hsome : Path.extension? value = some extension)
      (hother : lowerCase extension ≠ "png") :
      ExtensionFault field value (unsupportedError field value extension)

theorem decides_fileExtension (field value : String) :
    Decides (fileExtension field value ["png"]) (IsPng value) (ExtensionFault field value) := by
  unfold fileExtension IsPng
  cases hextension : Path.extension? value with
  | none =>
      refine ⟨by simp, fun e => ?_⟩
      constructor
      · intro he
        obtain rfl := Except.error.inj he
        exact .missing hextension
      · rintro (hnone | ⟨hsome, _⟩)
        · rfl
        · simp [hextension] at hsome
  | some extension =>
      refine (decides_require _ field value _).congr ?_ fun e => ?_
      · simp
      · have hlist : ", ".intercalate ["png"] = "png" := rfl
        have hreason (list : String) (hlist : list = "png") :
            s!"Unsupported file extension: {String.ofList extension}. Allowed extensions: {list}" =
              s!"Unsupported file extension: {String.ofList extension}. Allowed extensions: png" := by
          rw [hlist, String.append_assoc]
          rfl
        rw [hreason _ hlist]
        constructor
        · rintro ⟨hother, rfl⟩
          exact .unsupported hextension (by simpa using hother)
        · rintro (hnone | ⟨hsome, hother⟩)
          · simp [hextension] at hnone
          · obtain rfl := Option.some.inj (hextension.symm.trans hsome)
            simp [hother, unsupportedError]

def IsImageSide (side : UInt32) : Prop := 64 ≤ side.toNat ∧ side.toNat ≤ 8192

def sideError (field : String) (side : UInt32) : PlotError :=
  .invalidValue field (toString side.toNat) "Value must be between 64 and 8192"

theorem decides_side (field : String) (side : UInt32) :
    Decides (integerWithin field side.toNat minImageSide maxImageSide) (IsImageSide side)
      (fun e => ¬ IsImageSide side ∧ e = sideError field side) := by
  refine (decides_require _ field _ _).congr ?_ fun e => ?_
  · simp [minImageSide, maxImageSide, IsImageSide]
  · have hreason : s!"Value must be between {toString minImageSide} and {toString maxImageSide}" =
        "Value must be between 64 and 8192" := by decide
    have hvalue : toString (side.toNat : ℤ) = toString side.toNat := rfl
    rw [hreason, hvalue]
    simp [minImageSide, maxImageSide, IsImageSide, sideError]

end Check

/-! ## Charts one by one -/

open Check

structure ChartJob.Valid (job : ChartJob) : Prop where
  name : NotBlank job.name
  input : IsPath job.input
  output : IsPath job.output
  extension : IsPng job.output
  xColumn : NotBlank job.xColumn
  yColumn : NotBlank job.yColumn

inductive ChartJob.Fault (job : ChartJob) : PlotError → Prop where
  | name (hblank : ¬ NotBlank job.name) : Fault job (blankError "charts.name" job.name)
  | input {e : PlotError} (hname : NotBlank job.name)
      (hfault : PathFault "charts.input" job.input e) : Fault job e
  | output {e : PlotError} (hname : NotBlank job.name) (hinput : IsPath job.input)
      (hfault : PathFault "charts.output" job.output e) : Fault job e
  | extension {e : PlotError} (hname : NotBlank job.name) (hinput : IsPath job.input)
      (houtput : IsPath job.output) (hfault : ExtensionFault "charts.output" job.output e) :
      Fault job e
  | xColumn (hname : NotBlank job.name) (hinput : IsPath job.input) (houtput : IsPath job.output)
      (hextension : IsPng job.output) (hblank : ¬ NotBlank job.xColumn) :
      Fault job (blankError "charts.x_column" job.xColumn)
  | yColumn (hname : NotBlank job.name) (hinput : IsPath job.input) (houtput : IsPath job.output)
      (hextension : IsPng job.output) (hx : NotBlank job.xColumn)
      (hblank : ¬ NotBlank job.yColumn) : Fault job (blankError "charts.y_column" job.yColumn)

namespace Check

theorem decides_chart (job : ChartJob) : Decides (chart job) job.Valid job.Fault := by
  have hchain := (decides_nonBlank "charts.name" job.name).bind <|
    (decides_path "charts.input" job.input).bind <|
    (decides_path "charts.output" job.output).bind <|
    (decides_fileExtension "charts.output" job.output).bind <|
    (decides_nonBlank "charts.x_column" job.xColumn).bind <|
    decides_nonBlank "charts.y_column" job.yColumn
  refine hchain.congr ?_ fun e => ?_
  · constructor
    · rintro ⟨hname, hinput, houtput, hextension, hx, hy⟩
      exact ⟨hname, hinput, houtput, hextension, hx, hy⟩
    · rintro ⟨hname, hinput, houtput, hextension, hx, hy⟩
      exact ⟨hname, hinput, houtput, hextension, hx, hy⟩
  · constructor
    · rintro (⟨hblank, rfl⟩ | ⟨hname, hfault | ⟨hinput, hfault | ⟨houtput, hfault |
        ⟨hextension, ⟨hblank, rfl⟩ | ⟨hx, hblank, rfl⟩⟩⟩⟩⟩)
      · exact .name hblank
      · exact .input hname hfault
      · exact .output hname hinput hfault
      · exact .extension hname hinput houtput hfault
      · exact .xColumn hname hinput houtput hextension hblank
      · exact .yColumn hname hinput houtput hextension hx hblank
    · intro hfault
      cases hfault <;> simp [*]

/-- The first chart that has a fault decides. -/
theorem decides_eachChart (jobs : List ChartJob) :
    Decides (eachChart jobs) (∀ job ∈ jobs, job.Valid) (fun e =>
      ∃ before job after, jobs = before ++ job :: after ∧
        (∀ earlier ∈ before, earlier.Valid) ∧ job.Fault e) := by
  induction jobs with
  | nil => exact ⟨by simp [eachChart], by simp [eachChart]⟩
  | cons job rest ih =>
      refine ((decides_chart job).bind ih).congr ?_ fun e => ?_
      · rw [List.forall_mem_cons]
      · rw [exists_cons_eq_append_cons_iff]
        by_cases hjob : job.Valid <;> simp [hjob]

/-! ## Values that are repeated -/

theorem firstRepeated?_eq_some_iff {seen values : List String} {value : String} :
    firstRepeated? seen values = some value ↔
      ∃ before after, values = before ++ value :: after ∧ before.Nodup ∧ seen.Disjoint before ∧
        (value ∈ seen ∨ value ∈ before) := by
  induction values generalizing seen with
  | nil => simp [firstRepeated?]
  | cons first rest ih =>
      rw [firstRepeated?]
      by_cases hseen : first ∈ seen
      · rw [if_pos (by simpa using hseen)]
        constructor
        · intro hfirst
          obtain rfl := Option.some.inj hfirst
          exact ⟨[], rest, rfl, .nil, by simp, .inl hseen⟩
        · rintro ⟨before, after, hsplit, _, hdisjoint, _⟩
          cases before with
          | nil => simp_all
          | cons earlier before =>
              obtain ⟨rfl, _⟩ := List.cons.inj hsplit
              exact absurd (List.mem_cons_self ..) (hdisjoint hseen)
      · rw [if_neg (by simpa using hseen), ih]
        constructor
        · rintro ⟨before, after, rfl, hnodup, hdisjoint, hmem⟩
          rw [List.disjoint_cons_left] at hdisjoint
          refine ⟨first :: before, after, rfl, List.nodup_cons.mpr ⟨hdisjoint.1, hnodup⟩,
            List.disjoint_cons_right.mpr ⟨hseen, hdisjoint.2⟩, ?_⟩
          simpa [or_left_comm, or_assoc] using hmem
        · rintro ⟨before, after, hsplit, hnodup, hdisjoint, hmem⟩
          cases before with
          | nil => simp_all
          | cons earlier before =>
              obtain ⟨rfl, rfl⟩ := List.cons.inj hsplit
              rw [List.nodup_cons] at hnodup
              rw [List.disjoint_cons_right] at hdisjoint
              refine ⟨before, after, rfl, hnodup.2,
                List.disjoint_cons_left.mpr ⟨hnodup.1, hdisjoint.2⟩, ?_⟩
              simpa [or_left_comm, or_assoc] using hmem

/-- The first value that was there before is reported. -/
inductive RepeatFault (field : String) (values : List String) : PlotError → Prop where
  | repeated {before after : List String} {value : String}
      (hsplit : values = before ++ value :: after) (hbefore : before.Nodup)
      (hmem : value ∈ before) :
      RepeatFault field values (.invalidValue field value "Value must be unique")

theorem decides_unique (field : String) (values : List String) :
    Decides (unique field values) values.Nodup (RepeatFault field values) where
  ok_iff := unique_eq_ok_iff
  error_iff := by
    intro e
    have hrepeated : ∀ value, firstRepeated? [] values = some value ↔
        ∃ before after, values = before ++ value :: after ∧ before.Nodup ∧ value ∈ before := by
      intro value
      simp [firstRepeated?_eq_some_iff]
    unfold unique
    cases hfirst : firstRepeated? [] values with
    | none =>
        simp only [reduceCtorEq, false_iff]
        rintro ⟨hsplit, hbefore, hmem⟩
        have hsome := (hrepeated _).mpr ⟨_, _, hsplit, hbefore, hmem⟩
        simp [hfirst] at hsome
    | some value =>
        obtain ⟨before, after, hsplit, hbefore, hmem⟩ := (hrepeated value).mp hfirst
        constructor
        · intro he
          obtain rfl := Except.error.inj he
          exact .repeated hsplit hbefore hmem
        · rintro ⟨hsplit, hbefore, hmem⟩
          have hsome := (hrepeated _).mpr ⟨_, _, hsplit, hbefore, hmem⟩
          rw [hfirst] at hsome
          rw [Option.some.inj hsome]

end Check

/-! ## Settings as a whole -/

/-- What is valid before the charts are looked at. -/
structure Settings.Framed (settings : Settings) : Prop where
  inputDir : IsPath settings.inputDir
  outputDir : IsPath settings.outputDir
  width : IsImageSide settings.width
  height : IsImageSide settings.height

structure Settings.Valid (settings : Settings) : Prop extends settings.Framed where
  charts_ne_nil : settings.charts ≠ []
  charts_valid : ∀ job ∈ settings.charts, job.Valid
  names_nodup : (settings.charts.map (·.name)).Nodup
  outputs_nodup : (settings.charts.map (·.output)).Nodup

inductive Settings.Fault (settings : Settings) : PlotError → Prop where
  | inputDir {e : PlotError} (hfault : PathFault "input_dir" settings.inputDir e) :
      Fault settings e
  | outputDir {e : PlotError} (hinput : IsPath settings.inputDir)
      (hfault : PathFault "output_dir" settings.outputDir e) : Fault settings e
  | width (hinput : IsPath settings.inputDir) (houtput : IsPath settings.outputDir)
      (hside : ¬ IsImageSide settings.width) :
      Fault settings (sideError "render.width" settings.width)
  | height (hinput : IsPath settings.inputDir) (houtput : IsPath settings.outputDir)
      (hwidth : IsImageSide settings.width) (hside : ¬ IsImageSide settings.height) :
      Fault settings (sideError "render.height" settings.height)
  | noCharts (hframed : settings.Framed) (hnil : settings.charts = []) :
      Fault settings (.missingValue "charts")
  | chart {before after : List ChartJob} {job : ChartJob} {e : PlotError}
      (hframed : settings.Framed) (hsplit : settings.charts = before ++ job :: after)
      (hbefore : ∀ earlier ∈ before, earlier.Valid) (hfault : job.Fault e) : Fault settings e
  | name {e : PlotError} (hframed : settings.Framed)
      (hcharts : ∀ job ∈ settings.charts, job.Valid)
      (hfault : RepeatFault "charts.name" (settings.charts.map (·.name)) e) : Fault settings e
  | output {e : PlotError} (hframed : settings.Framed)
      (hcharts : ∀ job ∈ settings.charts, job.Valid)
      (hnames : (settings.charts.map (·.name)).Nodup)
      (hfault : RepeatFault "charts.output" (settings.charts.map (·.output)) e) :
      Fault settings e

namespace Check

theorem RepeatFault.ne_nil {field : String} {values : List String} {e : PlotError}
    (hfault : RepeatFault field values e) : values ≠ [] := by
  cases hfault
  simp [*]

theorem decides_charts (jobs : List ChartJob) :
    Decides (charts jobs)
      (jobs ≠ [] ∧ (∀ job ∈ jobs, job.Valid) ∧ (jobs.map (·.name)).Nodup ∧
        (jobs.map (·.output)).Nodup)
      (fun e => jobs = [] ∧ e = .missingValue "charts" ∨ jobs ≠ [] ∧
        ((∃ before job after, jobs = before ++ job :: after ∧
          (∀ earlier ∈ before, earlier.Valid) ∧ job.Fault e) ∨
        (∀ job ∈ jobs, job.Valid) ∧ (RepeatFault "charts.name" (jobs.map (·.name)) e ∨
          (jobs.map (·.name)).Nodup ∧ RepeatFault "charts.output" (jobs.map (·.output)) e))) := by
  have hchain := (decides_eachChart jobs).bind <|
    (decides_unique "charts.name" (jobs.map (·.name))).bind <|
    decides_unique "charts.output" (jobs.map (·.output))
  unfold charts
  by_cases hnil : jobs = []
  · subst hnil
    exact ⟨by simp, by simp [eq_comm]⟩
  · rw [if_neg (by simpa using hnil)]
    refine hchain.congr ?_ fun e => ?_
    · simp [hnil]
    · simp [hnil]

theorem decides_validate (settings : Settings) :
    Decides settings.validate settings.Valid settings.Fault := by
  have hchain := (decides_path "input_dir" settings.inputDir).bind <|
    (decides_path "output_dir" settings.outputDir).bind <|
    (decides_side "render.width" settings.width).bind <|
    (decides_side "render.height" settings.height).bind <|
    decides_charts settings.charts
  refine hchain.congr ?_ fun e => ?_
  · constructor
    · rintro ⟨hinput, houtput, hwidth, hheight, hne, hcharts, hnames, houtputs⟩
      exact ⟨⟨hinput, houtput, hwidth, hheight⟩, hne, hcharts, hnames, houtputs⟩
    · rintro ⟨⟨hinput, houtput, hwidth, hheight⟩, hne, hcharts, hnames, houtputs⟩
      exact ⟨hinput, houtput, hwidth, hheight, hne, hcharts, hnames, houtputs⟩
  · constructor
    · rintro (hfault | ⟨hinput, hfault | ⟨houtput, ⟨hside, rfl⟩ | ⟨hwidth, ⟨hside, rfl⟩ |
        ⟨hheight, hfault⟩⟩⟩⟩)
      · exact .inputDir hfault
      · exact .outputDir hinput hfault
      · exact .width hinput houtput hside
      · exact .height hinput houtput hwidth hside
      · have hframed : settings.Framed := ⟨hinput, houtput, hwidth, hheight⟩
        rcases hfault with ⟨hnil, rfl⟩ | ⟨_, ⟨before, job, after, hsplit, hbefore, hfault⟩ |
          ⟨hcharts, hfault | ⟨hnames, hfault⟩⟩⟩
        · exact .noCharts hframed hnil
        · exact .chart hframed hsplit hbefore hfault
        · exact .name hframed hcharts hfault
        · exact .output hframed hcharts hnames hfault
    · intro hfault
      cases hfault with
      | inputDir hfault => exact .inl hfault
      | outputDir hinput hfault => exact .inr ⟨hinput, .inl hfault⟩
      | width hinput houtput hside => simp [*]
      | height hinput houtput hwidth hside => simp [*]
      | noCharts hframed hnil =>
          obtain ⟨hinput, houtput, hwidth, hheight⟩ := hframed
          simp [*]
      | chart hframed hsplit hbefore hfault =>
          obtain ⟨hinput, houtput, hwidth, hheight⟩ := hframed
          have hne : settings.charts ≠ [] := by simp [hsplit]
          exact .inr ⟨hinput, .inr ⟨houtput, .inr ⟨hwidth, .inr ⟨hheight, .inr ⟨hne,
            .inl ⟨_, _, _, hsplit, hbefore, hfault⟩⟩⟩⟩⟩⟩
      | name hframed hcharts hfault =>
          obtain ⟨hinput, houtput, hwidth, hheight⟩ := hframed
          have hne : settings.charts ≠ [] := by simpa using hfault.ne_nil
          exact .inr ⟨hinput, .inr ⟨houtput, .inr ⟨hwidth, .inr ⟨hheight, .inr ⟨hne,
            .inr ⟨hcharts, .inl hfault⟩⟩⟩⟩⟩⟩
      | output hframed hcharts hnames hfault =>
          obtain ⟨hinput, houtput, hwidth, hheight⟩ := hframed
          have hne : settings.charts ≠ [] := by simpa using hfault.ne_nil
          exact .inr ⟨hinput, .inr ⟨houtput, .inr ⟨hwidth, .inr ⟨hheight, .inr ⟨hne,
            .inr ⟨hcharts, .inr ⟨hnames, hfault⟩⟩⟩⟩⟩⟩⟩

/-! ## Faults told apart by their reasons -/

variable {field field' value value' : String} {e : PlotError}

/-- The reason that is given for a value which was there before. -/
def RepeatReason (e : PlotError) : Prop :=
  ∃ field value, e = .invalidValue field value "Value must be unique"

theorem PathFault.not_repeatReason (hfault : PathFault field value e) : ¬ RepeatReason e := by
  rintro ⟨field', value', heq⟩
  cases hfault <;> simp at heq

theorem not_repeatReason_blankError : ¬ RepeatReason (blankError field value) := by
  rintro ⟨field', value', heq⟩
  simp [blankError] at heq

theorem not_repeatReason_sideError {side : UInt32} : ¬ RepeatReason (sideError field side) := by
  rintro ⟨field', value', heq⟩
  simp [sideError] at heq

theorem ExtensionFault.not_repeatReason (hfault : ExtensionFault field value e) :
    ¬ RepeatReason e := by
  rintro ⟨field', value', heq⟩
  cases hfault with
  | missing => simp at heq
  | unsupported =>
      have hreason := congrArg (fun reason => reason.toList.head?)
        (PlotError.invalidValue.inj heq).2.2
      simp [toString] at hreason

end Check

theorem ChartJob.Fault.not_repeatReason {job : ChartJob} {e : PlotError}
    (hfault : job.Fault e) : ¬ RepeatReason e := by
  cases hfault with
  | name => exact not_repeatReason_blankError
  | input _ hfault => exact hfault.not_repeatReason
  | output _ _ hfault => exact hfault.not_repeatReason
  | extension _ _ _ hfault => exact hfault.not_repeatReason
  | xColumn => exact not_repeatReason_blankError
  | yColumn => exact not_repeatReason_blankError

namespace Settings

variable {settings : Settings} {e : PlotError}

theorem Fault.valid_of_repeatReason (hfault : settings.Fault e) (hreason : RepeatReason e) :
    settings.Framed ∧ ∀ job ∈ settings.charts, job.Valid := by
  cases hfault with
  | inputDir hfault => exact absurd hreason hfault.not_repeatReason
  | outputDir _ hfault => exact absurd hreason hfault.not_repeatReason
  | width => exact absurd hreason not_repeatReason_sideError
  | height => exact absurd hreason not_repeatReason_sideError
  | noCharts =>
      obtain ⟨field, value, heq⟩ := hreason
      contradiction
  | chart _ _ _ hfault => exact absurd hreason hfault.not_repeatReason
  | name hframed hcharts => exact ⟨hframed, hcharts⟩
  | output hframed hcharts => exact ⟨hframed, hcharts⟩

theorem Fault.kind (hfault : settings.Fault e) :
    settings.charts = [] ∧ e = .missingValue "charts" ∨
      ∃ field value reason, e = .invalidValue field value reason := by
  have hpath : ∀ {field value : String}, PathFault field value e →
      ∃ field value reason, e = .invalidValue field value reason := by
    rintro _ _ (hempty | hnul) <;> exact ⟨_, _, _, rfl⟩
  have hrepeat : ∀ {field : String} {values : List String}, RepeatFault field values e →
      ∃ field value reason, e = .invalidValue field value reason := by
    rintro _ _ ⟨⟩
    exact ⟨_, _, _, rfl⟩
  cases hfault with
  | inputDir hfault => exact .inr (hpath hfault)
  | outputDir _ hfault => exact .inr (hpath hfault)
  | width => exact .inr ⟨_, _, _, rfl⟩
  | height => exact .inr ⟨_, _, _, rfl⟩
  | noCharts _ hnil => exact .inl ⟨hnil, rfl⟩
  | name _ _ hfault => exact .inr (hrepeat hfault)
  | output _ _ _ hfault => exact .inr (hrepeat hfault)
  | chart _ _ _ hfault =>
      cases hfault with
      | input _ hfault => exact .inr (hpath hfault)
      | output _ _ hfault => exact .inr (hpath hfault)
      | extension _ _ _ hfault => cases hfault <;> exact .inr ⟨_, _, _, rfl⟩
      | name => exact .inr ⟨_, _, _, rfl⟩
      | xColumn => exact .inr ⟨_, _, _, rfl⟩
      | yColumn => exact .inr ⟨_, _, _, rfl⟩

end Settings

/-- Validation accepts the valid settings and reports the first fault of all others.  A value
that is repeated is reported only where everything else is in order. -/
theorem Settings.validate_finds_first_fault (settings : Settings) :
    (settings.validate = .ok () ↔ settings.Valid) ∧
    (∀ e, settings.validate = .error e ↔ settings.Fault e) ∧
    (∀ e, settings.validate = .error e →
      settings.charts = [] ∧ e = .missingValue "charts" ∨
        ∃ field value reason, e = .invalidValue field value reason) ∧
    ∀ field value, settings.validate = .error (.invalidValue field value "Value must be unique") →
      settings.Framed ∧ ∀ job ∈ settings.charts, job.Valid := by
  have hdecides := decides_validate settings
  refine ⟨hdecides.ok_iff, hdecides.error_iff, fun e he => ?_, fun field value he => ?_⟩
  · exact ((hdecides.error_iff e).mp he).kind
  · exact ((hdecides.error_iff _).mp he).valid_of_repeatReason ⟨field, value, rfl⟩

/-- Two charts of one name and one output, where the output of the second is no png file. -/
def Settings.namesakes (extension : String) : Settings where
  inputDir := "bench"
  outputDir := "plots"
  width := 640
  height := 8192
  allSeries := true
  charts := [{ ChartJob.insert with output := "plot.PNG" },
    { ChartJob.churn with name := "insert", output := s!"plot.{extension}" }]

theorem Settings.validate_namesakes :
    (Settings.namesakes "svg").Fault
      (unsupportedError "charts.output" "plot.svg" "svg".toList) ∧
    (Settings.namesakes "PNG").validate =
      .error (.invalidValue "charts.name" "insert" "Value must be unique") ∧
    ∀ job ∈ (Settings.namesakes "PNG").charts, job.Valid := by
  have hfaulty : (Settings.namesakes "svg").validate =
      .error (unsupportedError "charts.output" "plot.svg" "svg".toList) := by
    decide +kernel
  have hrepeated : (Settings.namesakes "PNG").validate =
      .error (.invalidValue "charts.name" "insert" "Value must be unique") := by
    decide +kernel
  have hfirst := Settings.validate_finds_first_fault (Settings.namesakes "svg")
  have hunique := Settings.validate_finds_first_fault (Settings.namesakes "PNG")
  exact ⟨(hfirst.2.1 _).mp hfaulty, hrepeated, (hunique.2.2.2 _ _ hrepeated).2⟩

end ThroughputPlot
