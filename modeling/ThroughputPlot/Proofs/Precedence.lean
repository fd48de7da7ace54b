import ThroughputPlot.Proofs.SessionOutcome

/-!
# The precedence of settings

What the command line says comes before what the file says, and the file before the defaults, for
each setting by itself.  Overrides one after the other are one override in which the later one
comes first.  A file that says nothing but the default charts leaves what the command line alone
would give, and a session with it is the session without it.
-/

namespace ThroughputPlot

/-! ## Overrides one after the other -/

theorem PathSection.override_override (first second : Overrides) (given : PathSection) :
    (given.override first).override second = given.override (first.andThen second) := by
  simp [override, Overrides.andThen, Option.or_assoc]

theorem ImageSection.override_override (first second : Overrides) (given : ImageSection) :
    (given.override first).override second = given.override (first.andThen second) := by
  cases hsecond : second.allSeries with
  | true => simp [override, Overrides.andThen, Option.or_assoc, hsecond]
  | false => simp [override, Overrides.andThen, Option.or_assoc, hsecond]

theorem Overrides.andThen_self (given : Overrides) : given.andThen given = given := by
  simp [andThen, Option.or_self]

namespace Config

theorem override_override (first second : Overrides) (config : Config) :
    (config.override first).override second = config.override (first.andThen second) := by
  unfold override
  simp only [Option.getD_some, PathSection.override_override, ImageSection.override_override]

theorem override_idem (given : Overrides) (config : Config) :
    (config.override given).override given = config.override given := by
  rw [override_override, Overrides.andThen_self]

/-! ## The settings of a configuration -/

theorem getD_allSeries_override (given : Overrides) (image : ImageSection) :
    (image.override given).allSeries.getD false =
      (given.allSeries || image.allSeries.getD false) := by
  unfold ImageSection.override
  cases given.allSeries <;> rfl

theorem settings_override (given : Overrides) (config : Config) :
    (config.override given).settings = {
      inputDir := (given.inputDir.or (config.paths.bind (·.inputDir))).getD defaultDirectory
      outputDir := (given.outputDir.or (config.paths.bind (·.outputDir))).getD defaultDirectory
      width := (given.width.or (config.image.bind (·.width))).getD defaultWidth
      height := (given.height.or (config.image.bind (·.height))).getD defaultHeight
      allSeries := given.allSeries || (config.image.bind (·.allSeries)).getD false
      charts := config.charts
    } := by
  obtain ⟨paths, image, charts⟩ := config
  unfold settings override
  simp only [Option.getD_some, getD_allSeries_override]
  cases paths with
  | none => cases image <;> rfl
  | some paths => cases image <;> rfl

/-- A configuration without sections leaves what the command line alone gives. -/
theorem settings_override_of_bare {line : CommandLine} {config : Config}
    (hpaths : config.paths = none) (himage : config.image = none)
    (hcharts : config.charts = ChartJob.defaults) :
    (config.override line.options.overrides).settings = line.settings := by
  rw [settings_override, hpaths, himage, hcharts]
  simp [CommandLine.settings, Options.overrides]

end Config

/-! ## Sessions with and without a file -/

def CommandLine.withoutConfig (line : CommandLine) : CommandLine :=
  { line with options := { line.options with config := none } }

theorem FileTree.settingsOf_of_config {tree : FileTree} {diagnosis : Config.Diagnosis}
    {environment : Environment} {line : CommandLine} {config : Config} {path : String}
    (hpath : line.options.config = some path)
    (hconfig : tree.configOf diagnosis environment path = .ok config) :
    tree.settingsOf diagnosis environment line =
      .ok (config.override line.options.overrides).settings := by
  unfold settingsOf
  rw [hpath]
  dsimp only
  rw [hconfig]
  rfl

theorem Outcome.Tells.same {outcome other : Outcome} {labels : LabelValues}
    {result : Except PlotError (List String)} (hfirst : outcome.Tells labels result)
    (hsecond : other.Tells labels result) :
    outcome.exitCode = other.exitCode ∧ outcome.output = other.output ∧
      outcome.complaint = other.complaint := by
  cases result with
  | error | ok =>
      exact ⟨hfirst.1.trans hsecond.1.symm, hfirst.2.1.trans hsecond.2.1.symm,
        hfirst.2.2.trans hsecond.2.2.symm⟩

/-- The settings of a session decide its effect, wherever they come from. -/
theorem Session.Effect.withoutConfig {renderer : Renderer} {diagnosis : Config.Diagnosis}
    {environment : Environment} {line : CommandLine} {tree left : FileTree}
    {result : Except PlotError (List String)}
    (heffect : Effect renderer diagnosis environment line tree result left)
    (hsame : tree.settingsOf diagnosis environment line =
      tree.settingsOf diagnosis environment line.withoutConfig) :
    Effect renderer diagnosis environment line.withoutConfig tree result left := by
  cases heffect with
  | unloaded hload => exact .unloaded (hsame.symm.trans hload)
  | invalid hload hvalid => exact .invalid (hsame.symm.trans hload) hvalid
  | unplanned hload hvalid hdry hplans =>
      exact .unplanned (hsame.symm.trans hload) hvalid hdry hplans
  | planned hload hvalid hdry hplans hread hshown =>
      exact .planned (hsame.symm.trans hload) hvalid hdry hplans hread hshown
  | stopped hload hvalid hdry hrun => exact .stopped (hsame.symm.trans hload) hvalid hdry hrun
  | ran hload hvalid hdry hrun => exact .ran (hsame.symm.trans hload) hvalid hdry hrun

theorem Session.run_withoutConfig {renderer : Renderer} {diagnosis : Config.Diagnosis}
    {environment : Environment} {line : CommandLine} {tree : FileTree}
    (hsame : tree.settingsOf diagnosis environment line =
      tree.settingsOf diagnosis environment line.withoutConfig) :
    let session :=
      (Session.run (FileTree.workspaceWith renderer) diagnosis environment line).run tree
    let plain :=
      (Session.run (FileTree.workspaceWith renderer) diagnosis environment
        line.withoutConfig).run tree
    session.2 = plain.2 ∧ session.1.exitCode = plain.1.exitCode ∧
      session.1.output = plain.1.output ∧ session.1.complaint = plain.1.complaint := by
  obtain ⟨result, left, heffect⟩ := exists_effect renderer diagnosis environment line tree
  obtain ⟨htells, hleft⟩ := heffect.run
  obtain ⟨htells', hleft'⟩ := (heffect.withoutConfig hsame).run
  exact ⟨hleft.trans hleft'.symm, htells.same htells'⟩

/-! ## The precedence of settings -/

/--
For any command line and configuration, each setting by itself is what the command line gives, or
else what the configuration gives, or else the default; all series are drawn if either asks for
it; and the charts are those of the configuration.  Overrides can be repeated and composed.  With
a configuration of nothing but the default charts, settings, validation and the whole session are
those of the command line alone.
-/
theorem Config.settings_by_precedence (line : CommandLine) (config : Config) :
    let given := line.options.overrides
    let settings := (config.override given).settings
    (settings.inputDir =
        (line.options.inputDir.or (config.paths.bind (·.inputDir))).getD defaultDirectory ∧
      settings.outputDir =
        (line.options.outputDir.or (config.paths.bind (·.outputDir))).getD defaultDirectory ∧
      settings.width = (line.options.width.or (config.image.bind (·.width))).getD defaultWidth ∧
      settings.height = (line.options.height.or (config.image.bind (·.height))).getD defaultHeight ∧
      (settings.allSeries = true ↔
        line.options.allSeries = true ∨ config.image.bind (·.allSeries) = some true) ∧
      settings.charts = config.charts ∧ (config.override given).charts = config.charts) ∧
    (config.override given).override given = config.override given ∧
    (∀ first second : Overrides,
      (config.override first).override second = config.override (first.andThen second)) ∧
    (config.paths = none → config.image = none → config.charts = ChartJob.defaults →
      settings = line.settings ∧ settings.validate = line.settings.validate ∧
      (∀ (m : Type → Type) [Monad m] (workspace : Workspace m),
        Session.execute workspace line settings =
          Session.execute workspace line.withoutConfig line.withoutConfig.settings) ∧
      ∀ (renderer : Renderer) (diagnosis : Config.Diagnosis) (environment : Environment)
        (tree : FileTree) (path : String),
        line.options.config = some path → tree.configOf diagnosis environment path = .ok config →
        let session :=
          (Session.run (FileTree.workspaceWith renderer) diagnosis environment line).run tree
        let plain :=
          (Session.run (FileTree.workspaceWith renderer) diagnosis environment
            line.withoutConfig).run tree
        session.2 = plain.2 ∧ session.1.exitCode = plain.1.exitCode ∧
          session.1.output = plain.1.output ∧ session.1.complaint = plain.1.complaint) := by
  intro given settings
  have hsettings := Config.settings_override given config
  refine ⟨?_, Config.override_idem given config,
    fun first second => Config.override_override first second config, ?_⟩
  · dsimp only [settings]
    rw [hsettings]
    refine ⟨rfl, rfl, rfl, rfl, ?_, rfl, rfl⟩
    rw [Bool.or_eq_true]
    cases config.image.bind (·.allSeries) with
    | none => simp [given, Options.overrides]
    | some allSeries => simp [given, Options.overrides]
  · intro hpaths himage hcharts
    have hbare : settings = line.settings :=
      Config.settings_override_of_bare hpaths himage hcharts
    refine ⟨hbare, congrArg Settings.validate hbare, ?_, ?_⟩
    · intro m _ workspace
      exact congrArg (Session.execute workspace line) hbare
    · intro renderer diagnosis environment tree path hpath hconfig
      apply Session.run_withoutConfig
      rw [FileTree.settingsOf_of_config hpath hconfig]
      exact congrArg Except.ok hbare

/-- The lines of a configuration file that gives the default charts and nothing else. -/
def FileTree.defaultCharts : List String := [
  "[[charts]]",
  "name = 'insert'",
  "input = 'rhm-insert.txt'",
  "output = 'plot_insert.png'",
  "x_label = 'percent of keys inserted (\x7bnum_keys\x7d)'",
  "y_label = 'throughput (num inserts per sec)'",
  "[[charts]]",
  "name = 'churn'",
  "input = 'rhm-churn.txt'",
  "output = 'plot_churn.png'",
  "x_label = 'percent of churn test(\x7bnum_churn_ops\x7d)'",
  "y_label = 'throughput (num ops per sec)'"]

/-- A directory with a table for each benchmark and a file of the default charts. -/
def FileTree.configured : FileTree :=
  .ofFiles "/bench" [("rhm-insert.txt", Utf8.encode "x_0 y_0\n1 2\n"),
    ("rhm-churn.txt", Utf8.encode "x_0 y_0\n3 4\n"),
    ("charts.toml", FileTree.defaultCharts.flatMap fun text => Utf8.encode text ++ [10])]

/-- A file of the default charts changes nothing, also where the command line asks for a width. -/
theorem Config.settings_by_precedence_defaults :
    let line : CommandLine := ⟨⟨10, 20⟩, { config := some "charts.toml", width := some 800 }⟩
    let config : Config := ⟨none, none, ChartJob.defaults⟩
    let tree := FileTree.configured
    let workspace := FileTree.workspaceWith (FileTree.draw .png)
    let session := (Session.run workspace (fun _ => "") [] line).run tree
    let plain := (Session.run workspace (fun _ => "") [] line.withoutConfig).run tree
    tree.configOf (fun _ => "") [] "charts.toml" = .ok config ∧
      (config.override line.options.overrides).settings.width = 800 ∧
      (config.override line.options.overrides).settings.height = 480 ∧
      session.1.exitCode = 0 ∧ session.1.output = plain.1.output ∧ session.2 = plain.2 := by
  intro line config tree workspace session plain
  obtain ⟨⟨_, _, hwidth, hheight, _⟩, _, _, hbare⟩ := Config.settings_by_precedence line config
  obtain ⟨_, _, _, hsessions⟩ := hbare rfl rfl rfl
  have hconfig : tree.configOf (fun _ => "") [] "charts.toml" = .ok config := by decide +kernel
  have hexit : plain.1.exitCode = 0 := by decide +kernel
  obtain ⟨hleft, hcode, houtput, _⟩ :=
    hsessions (FileTree.draw .png) (fun _ => "") [] tree "charts.toml" rfl hconfig
  exact ⟨hconfig, hwidth, hheight, hcode.trans hexit, houtput, hleft⟩

end ThroughputPlot
