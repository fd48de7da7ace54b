import ThroughputPlot.Proofs.FailFast

/-!
# Planning runs foresee runs

A planning run reads and builds as a run does, but gets the place of an image from the settings
and not from the storage.  It asks the backend for inputs only.  Where the storage places outputs
as the settings tell and every drawing succeeds, a run can fail only where the planning run does,
and then with the same error.  Otherwise the plans describe what the run draws.
-/

namespace ThroughputPlot

open Run

section

variable {π : Type}

/-! ## What a planning run does -/

def Assignment.planOf (assignment : Assignment) (job : ChartJob) (chart : Chart) : ChartPlan :=
  .ofChart job (assignment.settings.outputLocation job) chart

/-- The plan of a job from the input that the storage holds. -/
def Answers.planOf (answers : Answers π) (assignment : Assignment) (job : ChartJob) :
    Except PlotError ChartPlan :=
  (answers.chartOf assignment job).map (assignment.planOf job)

theorem performs_planJob (assignment : Assignment) (answers : Answers π) (job : ChartJob) :
    Performs (assignment.planJob answers.backend job) [.read job.input]
      (answers.planOf assignment job) :=
  performs_iff_yields.mpr fun _ => yields_planJob rfl

theorem performs_planJobs (assignment : Assignment) (answers : Answers π) (jobs : List ChartJob) :
    ∃ reached, reached <+: jobs ∧
      Performs (jobs.mapM (assignment.planJob answers.backend))
        (reached.map fun job => .read job.input) (jobs.mapM (answers.planOf assignment)) := by
  induction jobs with
  | nil => exact ⟨[], List.prefix_refl [], performs_pure []⟩
  | cons job jobs ih =>
      have hjob := performs_planJob assignment answers job
      rw [List.mapM_cons, List.mapM_cons]
      cases hplan : answers.planOf assignment job with
      | error e =>
          rw [hplan] at hjob
          exact ⟨[job], ⟨jobs, rfl⟩, hjob.bind_error⟩
      | ok plan =>
          obtain ⟨reached, hreached, hjobs⟩ := ih
          rw [hplan] at hjob
          refine ⟨job :: reached, List.cons_prefix_cons.mpr ⟨rfl, hreached⟩, ?_⟩
          apply hjob.bind
          exact hjobs.bind_pure _

theorem plan_reads_only (assignment : Assignment) (answers : Answers π) :
    ∀ call ∈ (observe (assignment.plan answers.backend)).2, ∃ input, call = .read input := by
  obtain ⟨reached, _, hplan⟩ := performs_planJobs assignment answers assignment.settings.charts
  intro call hcall
  rw [Assignment.plan, hplan.observe_eq] at hcall
  obtain ⟨job, _, rfl⟩ := List.mem_map.mp hcall
  exact ⟨job.input, rfl⟩

end

/-! ## What a planning run foresees -/

section

variable {π : Type} [ToString π] {assignment : Assignment} {answers : Answers π}

/-- A job with the chart that was drawn for it and the path that the renderer was given. -/
structure Drawn (π : Type) where
  job : ChartJob
  chart : Chart
  path : π

def Drawn.calls (drawn : Drawn π) : List (Call π) :=
  [.read drawn.job.input, .outputPath drawn.job.output, .render drawn.chart drawn.path]

/-- A plan says what was drawn and where. -/
structure ChartPlan.Describes (plan : ChartPlan) (drawn : Drawn π) : Prop where
  name : plan.name = drawn.job.name
  input : plan.input = drawn.job.input
  output : plan.output = toString drawn.path
  xLabel : plan.xLabel = drawn.chart.xLabel
  yLabel : plan.yLabel = drawn.chart.yLabel
  series : plan.series = drawn.chart.series.map (·.name)
  points : plan.points = (drawn.chart.series.map (·.points.length)).sum
  xRange : plan.xRange = drawn.chart.xRange
  yRange : plan.yRange = drawn.chart.yRange

/-- What was drawn is what the input holds, at the place that the settings tell. -/
structure Drawn.Foreseen (assignment : Assignment) (answers : Answers π) (drawn : Drawn π) :
    Prop where
  chart : answers.chartOf assignment drawn.job = .ok drawn.chart
  path : toString drawn.path = assignment.settings.outputLocation drawn.job

theorem Drawn.Foreseen.planOf_eq {drawn : Drawn π} (hforeseen : drawn.Foreseen assignment answers) :
    answers.planOf assignment drawn.job = .ok (assignment.planOf drawn.job drawn.chart) := by
  rw [Answers.planOf, hforeseen.chart]
  rfl

theorem Assignment.describes_planOf (assignment : Assignment) {drawn : Drawn π}
    (hpath : toString drawn.path = assignment.settings.outputLocation drawn.job) :
    (assignment.planOf drawn.job drawn.chart).Describes drawn where
  name := rfl
  input := rfl
  output := hpath.symm
  xLabel := rfl
  yLabel := rfl
  series := rfl
  points := List.length_flatMap
  xRange := rfl
  yRange := rfl

/-- The storage has a place for every output, and it is the one that the settings tell. -/
def Answers.PlacesOutputs (answers : Answers π) (settings : Settings) : Prop :=
  ∀ output, ∃ path, answers.outputPath output = .ok path ∧
    toString path = Path.join settings.outputDir output

theorem JobTrace.foreseen {job : ChartJob} {calls : List (Call π)}
    {result : Except PlotError String}
    (htrace : JobTrace assignment.chartOf answers job calls result)
    (hplaces : answers.PlacesOutputs assignment.settings)
    (hrenders : ∀ chart path, (answers.render chart path).result = .ok ()) :
    (∃ e, result = .error e ∧ answers.planOf assignment job = .error e) ∨
    ∃ drawn : Drawn π, drawn.job = job ∧ drawn.Foreseen assignment answers ∧
      result = .ok (toString drawn.path) ∧ calls = drawn.calls := by
  cases htrace with
  | @unread e hread =>
      left
      refine ⟨e, rfl, ?_⟩
      rw [Answers.planOf, Answers.chartOf_of_unread hread]
      rfl
  | @unbuilt content e hread hchart =>
      left
      refine ⟨e, rfl, ?_⟩
      rw [Answers.planOf, Answers.chartOf_of_read hread, hchart]
      rfl
  | unplaced _ _ hpath =>
      obtain ⟨path, hplace, _⟩ := hplaces job.output
      rw [hplace] at hpath
      contradiction
  | undrawn _ _ _ hrender =>
      rw [hrenders] at hrender
      contradiction
  | @drawn content chart path hread hchart hpath hrender =>
      right
      obtain ⟨place, hplace, hlocation⟩ := hplaces job.output
      obtain rfl : place = path := by
        rw [hplace] at hpath
        exact Except.ok.inj hpath
      have hbuilt : answers.chartOf assignment job = .ok chart :=
        (Answers.chartOf_of_read hread).trans hchart
      exact ⟨⟨job, chart, place⟩, rfl, ⟨hbuilt, hlocation⟩, rfl, rfl⟩

theorem RunTrace.foreseen {jobs : List ChartJob} {calls : List (Call π)}
    {result : Except PlotError (List String)}
    (htrace : RunTrace assignment.chartOf answers jobs calls result)
    (hplaces : answers.PlacesOutputs assignment.settings)
    (hrenders : ∀ chart path, (answers.render chart path).result = .ok ()) :
    (∃ e, result = .error e ∧ jobs.mapM (answers.planOf assignment) = .error e) ∨
    ∃ drawn : List (Drawn π), drawn.map (·.job) = jobs ∧
      (∀ d ∈ drawn, d.Foreseen assignment answers) ∧
      result = .ok (drawn.map fun d => toString d.path) ∧ calls = drawn.flatMap Drawn.calls := by
  induction htrace with
  | done => exact .inr ⟨[], rfl, by simp, rfl, rfl⟩
  | stopped hjob =>
      obtain ⟨e, herror, hplan⟩ | ⟨d, _, _, hresult, _⟩ := hjob.foreseen hplaces hrenders
      · left
        refine ⟨e, congrArg Except.error (Except.error.inj herror), ?_⟩
        rw [List.mapM_cons, hplan]
        rfl
      · contradiction
  | next hjob _ ih =>
      obtain ⟨e, herror, _⟩ | ⟨d, rfl, hforeseen, hresult, rfl⟩ := hjob.foreseen hplaces hrenders
      · contradiction
      obtain rfl := Except.ok.inj hresult
      obtain ⟨e, rfl, hplans⟩ | ⟨drawn, rfl, hall, rfl, rfl⟩ := ih
      · left
        refine ⟨e, rfl, ?_⟩
        rw [List.mapM_cons, hforeseen.planOf_eq, hplans]
        rfl
      · right
        refine ⟨d :: drawn, rfl, ?_, rfl, rfl⟩
        exact List.forall_mem_cons.mpr ⟨hforeseen, hall⟩

theorem mapM_planOf_foreseen {drawn : List (Drawn π)}
    (hall : ∀ d ∈ drawn, d.Foreseen assignment answers) :
    (drawn.map (·.job)).mapM (answers.planOf assignment) =
      .ok (drawn.map fun d => assignment.planOf d.job d.chart) := by
  induction drawn with
  | nil => rfl
  | cons d drawn ih =>
      have hhead := (hall d List.mem_cons_self).planOf_eq
      have htail := ih fun d' hd' => hall d' (List.mem_cons_of_mem d hd')
      rw [List.map_cons, List.mapM_cons, hhead, htail]
      rfl

end

/-! ## Workspaces -/

/-- What a workspace answers whose state never changes. -/
def Workspace.answers (workspace : Workspace Id) (settings : Settings) : Answers String where
  read := workspace.readInput settings.inputDir
  outputPath := workspace.prepareOutput settings.outputDir
  render chart path := workspace.draw ⟨chart, settings.width, settings.height⟩ path

/-- A workspace places outputs as the settings tell, if directories can be made in it. -/
theorem Workspace.placesOutputs_answers {workspace : Workspace Id}
    (hmakes : ∀ directory, workspace.makeDirectories directory = .ok ()) (settings : Settings) :
    (workspace.answers settings).PlacesOutputs settings := by
  intro output
  refine ⟨Path.join settings.outputDir output, ?_, rfl⟩
  unfold Workspace.answers Workspace.prepareOutput
  dsimp only
  cases hparent : Path.parent? (Path.join settings.outputDir output) with
  | none => rfl
  | some directory =>
      dsimp only
      rw [hmakes directory]
      cases directory.isEmpty <;> rfl

/-! ## Plans and runs -/

/--
A planning run makes no call but to read inputs.  Where the storage places outputs as the
settings tell and every drawing succeeds, it fails as the run fails, or else its plans describe,
one for one, the charts that the run draws and the outputs that it gives.
-/
theorem plan_foresees_run {π : Type} [ToString π] (assignment : Assignment)
    (answers : Answers π) :
    (∀ call ∈ (observe (assignment.plan answers.backend)).2, ∃ input, call = .read input) ∧
    (answers.PlacesOutputs assignment.settings →
      (∀ chart path, (answers.render chart path).result = .ok ()) →
      (∃ e, (observe (assignment.plan answers.backend)).1 = .error e ∧
        (observe (assignment.run answers.backend)).1 = .error e) ∨
      ∃ (plans : List ChartPlan) (outputs : List String) (drawn : List (Drawn π)),
        (observe (assignment.plan answers.backend)).1 = .ok plans ∧
        observe (assignment.run answers.backend) = (.ok outputs, drawn.flatMap Drawn.calls) ∧
        drawn.map (·.job) = assignment.settings.charts ∧
        plans.length = drawn.length ∧ outputs.length = drawn.length ∧
        ∀ (i : Nat) (d : Drawn π), drawn[i]? = some d →
          ∃ plan, plans[i]? = some plan ∧ outputs[i]? = some plan.output ∧
            plan.Describes d) := by
  refine ⟨plan_reads_only assignment answers, ?_⟩
  intro hplaces hrenders
  obtain ⟨calls, result, htrace⟩ :=
    exists_runTrace assignment.chartOf answers assignment.settings.charts
  obtain ⟨_, _, hplan⟩ := performs_planJobs assignment answers assignment.settings.charts
  have hplanned : (observe (assignment.plan answers.backend)).1 =
      assignment.settings.charts.mapM (answers.planOf assignment) := by
    rw [Assignment.plan, hplan.observe_eq]
  have hrun := htrace.performs.observe_eq
  obtain ⟨e, rfl, hplans⟩ | ⟨drawn, hjobs, hall, rfl, rfl⟩ := htrace.foreseen hplaces hrenders
  · left
    exact ⟨e, hplanned.trans hplans, by rw [hrun]⟩
  · right
    refine ⟨drawn.map fun d => assignment.planOf d.job d.chart,
      drawn.map fun d => toString d.path, drawn, ?_, hrun, hjobs, List.length_map _,
      List.length_map _, ?_⟩
    · rw [hplanned, ← hjobs]
      exact mapM_planOf_foreseen hall
    · intro i d hd
      have hforeseen := hall d (List.mem_of_getElem? hd)
      refine ⟨assignment.planOf d.job d.chart, ?_, ?_, assignment.describes_planOf hforeseen.path⟩
      · rw [List.getElem?_map, hd]
        rfl
      · rw [List.getElem?_map, hd, (assignment.describes_planOf hforeseen.path).output]
        rfl

/-- A workspace in which every file holds the same table and nothing fails. -/
def Workspace.uniform : Workspace Id where
  readFile _ := .ok (Utf8.encode "x_0 y_0 x_1 y_1\n1 2 3 4\n5 6 nan 8\n")
  makeDirectories _ := .ok ()
  draw _ _ := (pure () : Report Unit)

/-- Both benchmarks with all their series. -/
def Assignment.benchmarks : Assignment where
  settings := ⟨"bench", "plots", defaultWidth, defaultHeight, true, ChartJob.defaults⟩
  labels := ⟨1000, 500⟩
  monitor := true

theorem plan_foresees_run_benchmarks :
    let assignment := Assignment.benchmarks
    let answers := Workspace.uniform.answers assignment.settings
    ∃ (plans : List ChartPlan) (drawn : List (Drawn String)),
      (observe (assignment.plan answers.backend)).1 = .ok plans ∧
      plans.map (·.points) = [3, 3] ∧
      (observe (assignment.run answers.backend)).2 = drawn.flatMap Drawn.calls ∧
      ∀ (i : Nat) (d : Drawn String), drawn[i]? = some d →
        ∃ plan, plans[i]? = some plan ∧ plan.Describes d := by
  intro assignment answers
  have hplaces : answers.PlacesOutputs assignment.settings :=
    Workspace.placesOutputs_answers (fun _ => rfl) assignment.settings
  have hrenders : ∀ chart path, (answers.render chart path).result = .ok () := fun _ _ => rfl
  have hpoints : (observe (assignment.plan answers.backend)).1.toOption.map
      (·.map (·.points)) = some [3, 3] := by
    decide +kernel
  obtain ⟨e, hplan, _⟩ | ⟨plans, outputs, drawn, hplan, hrun, _, _, _, hdescribes⟩ :=
    (plan_foresees_run assignment answers).2 hplaces hrenders
  · rw [hplan] at hpoints
    contradiction
  · rw [hplan] at hpoints
    refine ⟨plans, drawn, hplan, Option.some.inj hpoints, by rw [hrun], ?_⟩
    intro i d hd
    obtain ⟨plan, hget, _, hplanned⟩ := hdescribes i d hd
    exact ⟨plan, hget, hplanned⟩

end ThroughputPlot
