import ThroughputPlot.Session
import ThroughputPlot.Proofs.PlanTexts
import ThroughputPlot.Proofs.TreeRuns

/-!
# The outcome of a session

A session loads its settings, checks them, and plans or carries out the jobs.  Its effect on a
tree has one rule for each stage at which it can fail and one for each way to succeed, and every
session has exactly one effect.  What a session prints and its exit status depend on the effect
alone.  Only a session that carries out jobs can change the tree.
-/

namespace ThroughputPlot

open Run

/-- The configuration that a file holds, with the references in it put in before it is read. -/
def FileTree.configOf (tree : FileTree) (diagnosis : Config.Diagnosis)
    (environment : Environment) (path : String) : Except PlotError Config :=
  match tree.readFile path with
  | .error fault => .error (.io fault)
  | .ok content =>
    match Utf8.decode? content with
    | none => .error (.io .notUtf8)
    | some text =>
      let expanded := Environment.expand environment.get? text
      match (Toml.read? expanded).bind Config.ofEntries? with
      | some config => .ok config
      | none =>
        let details := "TOML parsing error: " ++ diagnosis expanded
        .error (.invalidConfiguration "toml_parsing" details)

/-- The settings of a session, from its command line and the file that it names. -/
def FileTree.settingsOf (tree : FileTree) (diagnosis : Config.Diagnosis)
    (environment : Environment) (line : CommandLine) : Except PlotError Settings :=
  match line.options.config with
  | none => .ok line.settings
  | some path => (tree.configOf diagnosis environment path).map fun config =>
      (config.override line.options.overrides).settings

def CommandLine.assignment (line : CommandLine) (settings : Settings) : Assignment :=
  ⟨settings, line.labels, line.options.monitor⟩

/-- The exit status that an error calls for. -/
def PlotError.status : PlotError → UInt32
  | .configuration .. | .invalidConfiguration .. | .invalidValue .. | .missingValue .. => 2
  | .inputNotFound .. | .malformedTable .. | .missingColumn .. | .invalidNumber ..
  | .extraFields .. | .unplottableRange .. => 1
  | .rendering .. | .io .. | .serialization .. => 3

theorem PlotError.exitCode_severity (e : PlotError) : e.severity.exitCode = e.status := by
  cases e <;> rfl

theorem PlotError.status_ne_zero (e : PlotError) : e.status ≠ 0 := by
  cases e <;> simp [status]

/-- The outcome shows the lines or the error that a session comes to, and nothing else. -/
def Outcome.Tells (outcome : Outcome) (labels : LabelValues) : Except PlotError (List String) → Prop
  | .ok lines =>
      outcome.exitCode = 0 ∧ outcome.output = Session.firstLine labels :: lines ∧
        outcome.complaint = []
  | .error e =>
      outcome.exitCode = e.status ∧ outcome.output = [Session.firstLine labels] ∧
        outcome.complaint = ["❌ " ++ e.friendlyMessage, "💡 " ++ e.suggestion]

theorem Outcome.Tells.exitCode_eq_zero_iff {outcome : Outcome} {labels : LabelValues}
    {result : Except PlotError (List String)} (htells : outcome.Tells labels result) :
    outcome.exitCode = 0 ↔ ∃ lines, result = .ok lines := by
  cases result with
  | error e =>
      rw [htells.1]
      simp [e.status_ne_zero]
  | ok lines => simp [htells.1]

theorem Outcome.Tells.exists_output_eq {outcome : Outcome} {labels : LabelValues}
    {result : Except PlotError (List String)} (htells : outcome.Tells labels result) :
    ∃ lines, outcome.output = Session.firstLine labels :: lines := by
  cases result with
  | error e => exact ⟨[], htells.2.1⟩
  | ok lines => exact ⟨lines, htells.2.1⟩

/-! ## What a planning session prints -/

/-- An object shows the chart that the tree holds for a job, and the place of its image. -/
def FileTree.ShowsJob (tree : FileTree) (assignment : Assignment) (job : ChartJob)
    (object : Json) : Prop :=
  ∃ (drawn : Drawn String) (plan : ChartPlan), drawn.job = job ∧
    tree.chartOf assignment job = .ok drawn.chart ∧
    drawn.path = assignment.settings.outputLocation job ∧
    plan.Describes drawn ∧ object.ShowsPlan plan

theorem FileTree.finite_planOf {tree : FileTree} {assignment : Assignment} {job : ChartJob}
    {plan : ChartPlan} (hplan : tree.planOf assignment job = .ok plan) : plan.Finite := by
  obtain ⟨chart, hchart, rfl⟩ := planOf_eq_ok_iff.mp hplan
  unfold chartOf at hchart
  cases hinput : tree.inputOf assignment.settings job with
  | error e =>
      rw [hinput] at hchart
      contradiction
  | ok content =>
      rw [hinput] at hchart
      exact Assignment.finite_planOf hchart

theorem FileTree.showsJob {tree : FileTree} {assignment : Assignment} {job : ChartJob}
    {plan : ChartPlan} (hplan : tree.planOf assignment job = .ok plan) :
    tree.ShowsJob assignment job plan.toJson := by
  have hshows := (finite_planOf hplan).showsPlan
  obtain ⟨chart, hchart, rfl⟩ := planOf_eq_ok_iff.mp hplan
  exact ⟨⟨job, chart, assignment.settings.outputLocation job⟩, _, rfl, hchart, rfl,
    assignment.describes_planOf rfl, hshows⟩

theorem FileTree.exists_objects {tree : FileTree} {assignment : Assignment}
    {jobs : List ChartJob} {plans : List ChartPlan}
    (hplans : jobs.mapM (tree.planOf assignment) = .ok plans) :
    ∃ objects, Json.read? (Json.array (plans.map ChartPlan.toJson)).indented.toList =
        some (.array objects) ∧
      List.Forall₂ (tree.ShowsJob assignment) jobs objects := by
  have hall := mapM_planOf_eq_ok_iff.mp hplans
  have hfinite := finite_of_forall₂ hall fun _ _ => finite_planOf
  refine ⟨plans.map ChartPlan.toJson, Json.read?_indented (isWritable_plans hfinite), ?_⟩
  rw [List.forall₂_map_right_iff]
  exact hall.imp fun _ _ => showsJob

namespace Session

/-! ## Effects -/

/--
The lines that a session prints after the first, or why it fails, and the tree it leaves.  What a
planning session prints is told by what it is read as, with one object for each job.
-/
inductive Effect (renderer : Renderer) (diagnosis : Config.Diagnosis) (environment : Environment)
    (line : CommandLine) (tree : FileTree) : Except PlotError (List String) → FileTree → Prop where
  | unloaded {e : PlotError} (hload : tree.settingsOf diagnosis environment line = .error e) :
      Effect renderer diagnosis environment line tree (.error e) tree
  | invalid {settings : Settings} {e : PlotError}
      (hload : tree.settingsOf diagnosis environment line = .ok settings)
      (hvalid : settings.validate = .error e) :
      Effect renderer diagnosis environment line tree (.error e) tree
  | unplanned {settings : Settings} {e : PlotError}
      (hload : tree.settingsOf diagnosis environment line = .ok settings)
      (hvalid : settings.validate = .ok ()) (hdry : line.options.dryRun = true)
      (hplans : settings.charts.mapM (tree.planOf (line.assignment settings)) = .error e) :
      Effect renderer diagnosis environment line tree (.error e) tree
  | planned {settings : Settings} {plans : List ChartPlan} {objects : List Json}
      (hload : tree.settingsOf diagnosis environment line = .ok settings)
      (hvalid : settings.validate = .ok ()) (hdry : line.options.dryRun = true)
      (hplans : settings.charts.mapM (tree.planOf (line.assignment settings)) = .ok plans)
      (hread : Json.read? (Json.array (plans.map ChartPlan.toJson)).indented.toList =
        some (.array objects))
      (hshown : List.Forall₂ (tree.ShowsJob (line.assignment settings)) settings.charts objects) :
      Effect renderer diagnosis environment line tree
        (.ok [(Json.array (plans.map ChartPlan.toJson)).indented]) tree
  | stopped {settings : Settings} {e : PlotError} {left : FileTree}
      (hload : tree.settingsOf diagnosis environment line = .ok settings)
      (hvalid : settings.validate = .ok ()) (hdry : line.options.dryRun = false)
      (hrun : RunEffect renderer (line.assignment settings) settings.charts tree (.error e) left) :
      Effect renderer diagnosis environment line tree (.error e) left
  | ran {settings : Settings} {left : FileTree}
      (hload : tree.settingsOf diagnosis environment line = .ok settings)
      (hvalid : settings.validate = .ok ()) (hdry : line.options.dryRun = false)
      (hrun : RunEffect renderer (line.assignment settings) settings.charts tree (.ok ()) left) :
      Effect renderer diagnosis environment line tree
        (.ok (settings.charts.map fun job => "📁 Output saved to: " ++ settings.outputLocation job))
        left

theorem exists_effect (renderer : Renderer) (diagnosis : Config.Diagnosis)
    (environment : Environment) (line : CommandLine) (tree : FileTree) :
    ∃ result left, Effect renderer diagnosis environment line tree result left := by
  cases hload : tree.settingsOf diagnosis environment line with
  | error e => exact ⟨_, _, .unloaded hload⟩
  | ok settings =>
      cases hvalid : settings.validate with
      | error e => exact ⟨_, _, .invalid hload hvalid⟩
      | ok _ =>
          cases hdry : line.options.dryRun with
          | true =>
              cases hplans : settings.charts.mapM (tree.planOf (line.assignment settings)) with
              | error e => exact ⟨_, _, .unplanned hload hvalid hdry hplans⟩
              | ok plans =>
                  obtain ⟨objects, hread, hshown⟩ := tree.exists_objects hplans
                  exact ⟨_, _, .planned hload hvalid hdry hplans hread hshown⟩
          | false =>
              obtain ⟨result, left, hrun⟩ :=
                exists_runEffect renderer (line.assignment settings) settings.charts tree
              cases result with
              | error e => exact ⟨_, _, .stopped hload hvalid hdry hrun⟩
              | ok _ => exact ⟨_, _, .ran hload hvalid hdry hrun⟩

/-! ## A session has its effect -/

section

variable {renderer : Renderer} {diagnosis : Config.Diagnosis} {environment : Environment}
  {line : CommandLine} {tree left : FileTree}

theorem yields_readConfig (renderer : Renderer) (diagnosis : Config.Diagnosis)
    (environment : Environment) (path : String) (tree : FileTree) :
    Yields (readConfig (FileTree.workspaceWith renderer) diagnosis environment path) tree
      (tree.configOf diagnosis environment path) tree := by
  unfold readConfig FileTree.configOf
  apply (yields_perform (run_readFile renderer path tree)).bind
  cases tree.readFile path with
  | error fault => exact (yields_ofExcept (.error (.io fault)) tree).bind_error
  | ok content =>
      apply (yields_ofExcept (.ok content) tree).bind
      dsimp only
      cases Utf8.decode? content with
      | none => exact yields_ofExcept (.error (.io .notUtf8)) tree
      | some text => exact yields_ofExcept (Config.read diagnosis environment text) tree

theorem yields_loadConfig (renderer : Renderer) (diagnosis : Config.Diagnosis)
    (environment : Environment) (line : CommandLine) (path : String) (tree : FileTree) :
    Yields (loadConfig (FileTree.workspaceWith renderer) diagnosis environment line path) tree
      ((tree.configOf diagnosis environment path).map fun config =>
        (config.override line.options.overrides).settings) tree := by
  unfold loadConfig
  apply (yields_log _ _ _ _).bind
  exact (yields_readConfig renderer diagnosis environment path tree).bind_pure _

/-- How a session comes to its settings. -/
def loading (workspace : Workspace (StateM FileTree)) (diagnosis : Config.Diagnosis)
    (environment : Environment) (line : CommandLine) : Run (StateM FileTree) Settings :=
  match line.options.config with
  | some path => loadConfig workspace diagnosis environment line path
  | none => pure line.settings

theorem yields_loading {loaded : Except PlotError Settings}
    (hload : tree.settingsOf diagnosis environment line = loaded) :
    Yields (loading (FileTree.workspaceWith renderer) diagnosis environment line) tree loaded
      tree := by
  subst hload
  unfold loading FileTree.settingsOf
  cases line.options.config with
  | none => exact yields_pure line.settings tree
  | some path => exact yields_loadConfig renderer diagnosis environment line path tree

theorem yields_body {result : Except PlotError (List String)}
    (hrest : Yields
      (loading (FileTree.workspaceWith renderer) diagnosis environment line >>=
        execute (FileTree.workspaceWith renderer) line) tree result left) :
    Yields (body (FileTree.workspaceWith renderer) diagnosis environment line) tree result
      left := by
  unfold body
  apply (yields_log _ _ _ _).bind
  apply yields_optional (yields_log _ _ _ _)
  -- The choice of the file stands around the rest of the session, and in `loading` before it.
  unfold loading at hrest
  cases hconfig : line.options.config with
  | none =>
      rw [hconfig] at hrest
      exact hrest
  | some path =>
      rw [hconfig] at hrest
      exact hrest

theorem yields_execute {settings : Settings} {result : Except PlotError (List String)}
    (hvalid : settings.validate = .ok ())
    (hrest : Yields
      (if line.options.dryRun then
        planLines (line.assignment settings)
          ((FileTree.workspaceWith renderer).backend settings)
      else
        outputLines (line.assignment settings)
          ((FileTree.workspaceWith renderer).backend settings)) tree result left) :
    Yields (execute (FileTree.workspaceWith renderer) line settings) tree result left := by
  unfold execute
  rw [hvalid]
  apply (yields_ofExcept (.ok ()) _).bind
  apply (yields_log _ _ _ _).bind
  exact yields_optional (yields_log _ _ _ _) hrest

theorem yields_planLines {assignment : Assignment} {planned : Except PlotError (List ChartPlan)}
    (hplans : assignment.settings.charts.mapM (tree.planOf assignment) = planned) :
    Yields
      (planLines assignment ((FileTree.workspaceWith renderer).backend assignment.settings)) tree
      (planned.map fun plans => [(Json.array (plans.map ChartPlan.toJson)).indented]) tree := by
  subst hplans
  unfold planLines Assignment.plan
  apply (yields_log _ _ _ _).bind
  exact (yields_planJobs renderer assignment tree assignment.settings.charts).bind_pure _

theorem yields_outputLines {assignment : Assignment} {result : Except PlotError Unit}
    (hrun : RunEffect renderer assignment assignment.settings.charts tree result left) :
    Yields
      (outputLines assignment ((FileTree.workspaceWith renderer).backend assignment.settings)) tree
      (result.map fun _ => assignment.settings.charts.map fun job =>
        "📁 Output saved to: " ++ assignment.settings.outputLocation job) left := by
  unfold outputLines
  cases result with
  | error e => exact hrun.yields.bind_error
  | ok _ =>
      apply hrun.yields.bind
      apply (yields_log _ _ _ _).bind
      have hlines : (assignment.settings.charts.map assignment.settings.outputLocation).map
          (fun output => "📁 Output saved to: " ++ output) =
          assignment.settings.charts.map fun job =>
            "📁 Output saved to: " ++ assignment.settings.outputLocation job :=
        List.map_map
      rw [← hlines]
      exact yields_pure _ left

theorem Effect.yields {result : Except PlotError (List String)}
    (heffect : Effect renderer diagnosis environment line tree result left) :
    Yields (body (FileTree.workspaceWith renderer) diagnosis environment line) tree result
      left := by
  apply yields_body
  cases heffect with
  | unloaded hload => exact (yields_loading hload).bind_error
  | invalid hload hvalid =>
      apply (yields_loading hload).bind
      unfold execute
      rw [hvalid]
      exact (yields_ofExcept (.error _) _).bind_error
  | unplanned hload hvalid hdry hplans | planned hload hvalid hdry hplans _ _ =>
      apply (yields_loading hload).bind
      apply yields_execute hvalid
      rw [if_pos hdry]
      exact yields_planLines hplans
  | stopped hload hvalid hdry hrun | ran hload hvalid hdry hrun =>
      apply (yields_loading hload).bind
      apply yields_execute hvalid
      rw [hdry, if_neg Bool.false_ne_true]
      exact yields_outputLines hrun

/-! ## What comes of a session -/

theorem Effect.unique {other : FileTree} {result result' : Except PlotError (List String)}
    (hfirst : Effect renderer diagnosis environment line tree result left)
    (hsecond : Effect renderer diagnosis environment line tree result' other) :
    result = result' ∧ left = other :=
  hfirst.yields.unique hsecond.yields

/-- The settings can be loaded and are valid, and every job succeeds. -/
def Succeeds (renderer : Renderer) (diagnosis : Config.Diagnosis) (environment : Environment)
    (line : CommandLine) (tree : FileTree) : Prop :=
  ∃ settings, tree.settingsOf diagnosis environment line = .ok settings ∧
    settings.validate = .ok () ∧
    if line.options.dryRun then
      ∀ job ∈ settings.charts, ∃ chart, tree.chartOf (line.assignment settings) job = .ok chart
    else
      ∃ left, RunEffect renderer (line.assignment settings) settings.charts tree (.ok ()) left

theorem Succeeds.exists_effect (hsucceeds : Succeeds renderer diagnosis environment line tree) :
    ∃ lines left, Effect renderer diagnosis environment line tree (.ok lines) left := by
  obtain ⟨settings, hload, hvalid, hjobs⟩ := hsucceeds
  cases hdry : line.options.dryRun with
  | true =>
      rw [if_pos hdry, ← exists_mapM_planOf_iff] at hjobs
      obtain ⟨plans, hplans⟩ := hjobs
      obtain ⟨objects, hread, hshown⟩ := tree.exists_objects hplans
      exact ⟨_, _, .planned hload hvalid hdry hplans hread hshown⟩
  | false =>
      rw [hdry, if_neg Bool.false_ne_true] at hjobs
      obtain ⟨left, hrun⟩ := hjobs
      exact ⟨_, _, .ran hload hvalid hdry hrun⟩

theorem Effect.exists_lines_iff {result : Except PlotError (List String)}
    (heffect : Effect renderer diagnosis environment line tree result left) :
    (∃ lines, result = .ok lines) ↔ Succeeds renderer diagnosis environment line tree := by
  constructor
  · rintro ⟨lines, rfl⟩
    cases heffect with
    | planned hload hvalid hdry hplans _ _ =>
        refine ⟨_, hload, hvalid, ?_⟩
        rw [if_pos hdry, ← exists_mapM_planOf_iff]
        exact ⟨_, hplans⟩
    | ran hload hvalid hdry hrun =>
        refine ⟨_, hload, hvalid, ?_⟩
        rw [hdry, if_neg Bool.false_ne_true]
        exact ⟨_, hrun⟩
  · intro hsucceeds
    obtain ⟨lines, other, hother⟩ := hsucceeds.exists_effect
    exact ⟨lines, (heffect.unique hother).1⟩

/-- The session does not come to its jobs, or it only plans them. -/
def LeavesFiles (diagnosis : Config.Diagnosis) (environment : Environment) (line : CommandLine)
    (tree : FileTree) : Prop :=
  (∃ e, tree.settingsOf diagnosis environment line = .error e) ∨
  (∃ settings e, tree.settingsOf diagnosis environment line = .ok settings ∧
    settings.validate = .error e) ∨
  line.options.dryRun = true

theorem Effect.left_eq {result : Except PlotError (List String)}
    (heffect : Effect renderer diagnosis environment line tree result left)
    (hleaves : LeavesFiles diagnosis environment line tree) : left = tree := by
  cases heffect with
  | unloaded | invalid | unplanned | planned => rfl
  | stopped hload hvalid hdry | ran hload hvalid hdry =>
      obtain ⟨e, hload'⟩ | ⟨settings, e, hload', hvalid'⟩ | hdry' := hleaves
      · rw [hload] at hload'
        contradiction
      · obtain rfl := Except.ok.inj (hload.symm.trans hload')
        rw [hvalid] at hvalid'
        contradiction
      · rw [hdry] at hdry'
        contradiction

theorem tells_outcome (labels : LabelValues) (result : Except PlotError (List String))
    (events : List Event) : (outcome labels result events).Tells labels result := by
  cases result with
  | error e => exact ⟨e.exitCode_severity, rfl, rfl⟩
  | ok lines => exact ⟨rfl, rfl, rfl⟩

theorem Effect.run {result : Except PlotError (List String)}
    (heffect : Effect renderer diagnosis environment line tree result left) :
    let session :=
      (Session.run (FileTree.workspaceWith renderer) diagnosis environment line).run tree
    session.1.Tells line.labels result ∧ session.2 = left := by
  obtain ⟨events, hbody⟩ := heffect.yields []
  have hrun : (Session.run (FileTree.workspaceWith renderer) diagnosis environment line).run tree =
      (outcome line.labels result events, left) := by
    unfold Session.run
    rw [StateT.run_bind, hbody]
    rfl
  rw [hrun]
  exact ⟨tells_outcome line.labels result events, rfl⟩

end

/--
For any renderer, command line and tree, and whatever is said about malformed files, the first
line of the output holds the two integers.  The session has exactly one effect: it leaves the tree
that the effect leaves, and tells the lines or the error of the effect and nothing else.  The exit
status is zero if and only if everything succeeds.  The tree is as before unless jobs are carried
out.
-/
theorem run_tells_effect (renderer : Renderer) (diagnosis : Config.Diagnosis)
    (environment : Environment) (line : CommandLine) (tree : FileTree) :
    let session :=
      (Session.run (FileTree.workspaceWith renderer) diagnosis environment line).run tree
    (∃ lines, session.1.output =
      (toString line.labels.numKeys.toInt ++ " " ++ toString line.labels.numChurnOps.toInt) ::
        lines) ∧
    (∃ result, session.1.Tells line.labels result ∧
      ∀ result' left, Effect renderer diagnosis environment line tree result' left ↔
        result' = result ∧ left = session.2) ∧
    (session.1.exitCode = 0 ↔ Succeeds renderer diagnosis environment line tree) ∧
    (LeavesFiles diagnosis environment line tree → session.2 = tree) := by
  intro session
  -- The session has some effect, it does what that says, and so no other effect is possible.
  obtain ⟨result, left, heffect⟩ := exists_effect renderer diagnosis environment line tree
  obtain ⟨htells, hleft⟩ := heffect.run
  refine ⟨htells.exists_output_eq, ⟨result, htells, ?_⟩, ?_, ?_⟩
  · intro result' left'
    constructor
    · intro hother
      obtain ⟨rfl, rfl⟩ := hother.unique heffect
      exact ⟨rfl, hleft.symm⟩
    · rintro ⟨rfl, rfl⟩
      rw [hleft]
      exact heffect
  · exact htells.exitCode_eq_zero_iff.trans heffect.exists_lines_iff
  · intro hleaves
    exact hleft.trans (heffect.left_eq hleaves)

/-- A directory with the table of the first benchmark only. -/
def halfMeasured : FileTree :=
  .ofFiles "/bench" [("rhm-insert.txt", Utf8.encode "x_0 y_0\n1 2\n3 4\n")]

/-- A run keeps the image that it has drawn before it stops, and a dry run leaves nothing. -/
theorem run_tells_missing_table :
    let line : CommandLine := ⟨⟨10, -20⟩, { outputDir := some "plots" }⟩
    let dryLine : CommandLine := ⟨⟨10, -20⟩, { outputDir := some "plots", dryRun := true }⟩
    let renderer := FileTree.draw .png
    let workspace := FileTree.workspaceWith renderer
    let session := (Session.run workspace (fun _ => "") [] line).run halfMeasured
    let drySession := (Session.run workspace (fun _ => "") [] dryLine).run halfMeasured
    session.1.exitCode = 1 ∧ session.1.output = ["10 -20"] ∧
      (halfMeasured.additions session.2).map (·.1) = ["plots/", "plots/plot_insert.png"] ∧
      ¬ Succeeds renderer (fun _ => "") [] line halfMeasured ∧
      (∃ e, session.1.Tells line.labels (.error e)) ∧
    LeavesFiles (fun _ => "") [] dryLine halfMeasured ∧ drySession.2 = halfMeasured := by
  intro line dryLine renderer workspace session drySession
  obtain ⟨_, ⟨result, htells, _⟩, hsucceeds, _⟩ :=
    run_tells_effect renderer (fun _ => "") [] line halfMeasured
  have hsession : session.1.exitCode = 1 ∧ session.1.output = ["10 -20"] ∧
      (halfMeasured.additions session.2).map (·.1) = ["plots/", "plots/plot_insert.png"] := by
    decide +kernel
  obtain ⟨hexit, houtput, hadditions⟩ := hsession
  have hfails : session.1.exitCode ≠ 0 := by
    rw [hexit]
    decide
  have hdry : LeavesFiles (fun _ => "") [] dryLine halfMeasured := .inr (.inr rfl)
  refine ⟨hexit, houtput, hadditions, fun hall => hfails (hsucceeds.mpr hall), ?_, hdry, ?_⟩
  · cases result with
    | error e => exact ⟨e, htells⟩
    | ok lines => exact absurd htells.1 hfails
  · exact (run_tells_effect renderer (fun _ => "") [] dryLine halfMeasured).2.2.2 hdry

end Session

end ThroughputPlot
