import ThroughputPlot.FileTree
import ThroughputPlot.Proofs.DryRun
import ThroughputPlot.Proofs.Effects

/-!
# Runs on a file tree

A run on a file tree reads from the tree and changes it on the way, so a job meets what the jobs
before it have left.  The effect of a job says what comes of it and which tree it leaves, with
one rule for each stage at which it can fail.  Drawing is left to a renderer, which may be any
function on trees.  A planning run leaves the tree as it is.
-/

namespace ThroughputPlot

def Assignment.drawing (assignment : Assignment) (chart : Chart) : Drawing :=
  ⟨chart, assignment.settings.width, assignment.settings.height⟩

namespace FileTree

/-- The input of a job; a file that is not there has an error of its own. -/
def inputOf (tree : FileTree) (settings : Settings) (job : ChartJob) : Except PlotError Bytes :=
  let path := Path.join settings.inputDir job.input
  match tree.readFile path with
  | .ok content => .ok content
  | .error .notFound => .error (.inputNotFound path)
  | .error fault => .error (.io fault)

/-- The chart of a job from the input that the tree holds. -/
def chartOf (tree : FileTree) (assignment : Assignment) (job : ChartJob) :
    Except PlotError Chart :=
  (tree.inputOf assignment.settings job).bind (assignment.chartOf job)

def planOf (tree : FileTree) (assignment : Assignment) (job : ChartJob) :
    Except PlotError ChartPlan :=
  (tree.chartOf assignment job).map (assignment.planOf job)

/-- Makes the directory in which a path lies, unless the path names none. -/
def makeParent (path : String) (tree : FileTree) : Except IoFault Unit × FileTree :=
  match Path.parent? path with
  | none => (.ok (), tree)
  | some directory => if directory.isEmpty then (.ok (), tree) else makeDirectories directory tree

end FileTree

/-! ## The effects of jobs -/

/-- What comes of a job on a tree, and the tree that it leaves. -/
inductive JobEffect (renderer : Renderer) (assignment : Assignment) (job : ChartJob)
    (tree : FileTree) : Except PlotError Unit → FileTree → Prop where
  | unbuilt {e : PlotError} (hchart : tree.chartOf assignment job = .error e) :
      JobEffect renderer assignment job tree (.error e) tree
  | unplaced {chart : Chart} {fault : IoFault} {left : FileTree}
      (hchart : tree.chartOf assignment job = .ok chart)
      (hplace : tree.makeParent (assignment.settings.outputLocation job) = (.error fault, left)) :
      JobEffect renderer assignment job tree (.error (.io fault)) left
  | undrawn {chart : Chart} {placed left : FileTree} {report : Report Unit} {e : PlotError}
      (hchart : tree.chartOf assignment job = .ok chart)
      (hplace : tree.makeParent (assignment.settings.outputLocation job) = (.ok (), placed))
      (hdraw : renderer (assignment.drawing chart) (assignment.settings.outputLocation job) placed =
        (report, left))
      (hreport : report.result = .error e) :
      JobEffect renderer assignment job tree (.error e) left
  | drawn {chart : Chart} {placed left : FileTree} {report : Report Unit}
      (hchart : tree.chartOf assignment job = .ok chart)
      (hplace : tree.makeParent (assignment.settings.outputLocation job) = (.ok (), placed))
      (hdraw : renderer (assignment.drawing chart) (assignment.settings.outputLocation job) placed =
        (report, left))
      (hreport : report.result = .ok ()) :
      JobEffect renderer assignment job tree (.ok ()) left

/-- What comes of jobs that are carried out one after the other. -/
inductive RunEffect (renderer : Renderer) (assignment : Assignment) :
    List ChartJob → FileTree → Except PlotError Unit → FileTree → Prop where
  | done {tree : FileTree} : RunEffect renderer assignment [] tree (.ok ()) tree
  | stopped {job : ChartJob} {jobs : List ChartJob} {tree left : FileTree} {e : PlotError}
      (hjob : JobEffect renderer assignment job tree (.error e) left) :
      RunEffect renderer assignment (job :: jobs) tree (.error e) left
  | next {job : ChartJob} {jobs : List ChartJob} {tree middle left : FileTree}
      {result : Except PlotError Unit}
      (hjob : JobEffect renderer assignment job tree (.ok ()) middle)
      (hjobs : RunEffect renderer assignment jobs middle result left) :
      RunEffect renderer assignment (job :: jobs) tree result left

theorem exists_jobEffect (renderer : Renderer) (assignment : Assignment) (job : ChartJob)
    (tree : FileTree) : ∃ result left, JobEffect renderer assignment job tree result left := by
  cases hchart : tree.chartOf assignment job with
  | error e => exact ⟨_, _, .unbuilt hchart⟩
  | ok chart =>
      rcases hplace : tree.makeParent (assignment.settings.outputLocation job) with
        ⟨placing, placed⟩
      cases placing with
      | error fault => exact ⟨_, _, .unplaced hchart hplace⟩
      | ok _ =>
          rcases hdraw : renderer (assignment.drawing chart)
            (assignment.settings.outputLocation job) placed with ⟨report, left⟩
          cases hreport : report.result with
          | error e => exact ⟨_, _, .undrawn hchart hplace hdraw hreport⟩
          | ok _ => exact ⟨_, _, .drawn hchart hplace hdraw hreport⟩

theorem exists_runEffect (renderer : Renderer) (assignment : Assignment) (jobs : List ChartJob)
    (tree : FileTree) : ∃ result left, RunEffect renderer assignment jobs tree result left := by
  induction jobs generalizing tree with
  | nil => exact ⟨_, _, .done⟩
  | cons job jobs ih =>
      obtain ⟨result, middle, hjob⟩ := exists_jobEffect renderer assignment job tree
      cases result with
      | error e => exact ⟨_, _, .stopped hjob⟩
      | ok _ =>
          obtain ⟨result, left, hjobs⟩ := ih middle
          exact ⟨_, _, .next hjob hjobs⟩

/-! ## What a backend of trees answers -/

theorem run_readFile (renderer : Renderer) (path : String) (tree : FileTree) :
    ((FileTree.workspaceWith renderer).readFile path).run tree = (tree.readFile path, tree) := rfl

theorem run_read (renderer : Renderer) (settings : Settings) (job : ChartJob) (tree : FileTree) :
    (((FileTree.workspaceWith renderer).backend settings).read job.input).run tree =
      (tree.inputOf settings job, tree) := by
  unfold Workspace.backend Workspace.readInput FileTree.inputOf
  dsimp only
  rw [StateT.run_bind, run_readFile]
  cases tree.readFile (Path.join settings.inputDir job.input) with
  | ok content => rfl
  | error fault => cases fault <;> rfl

theorem run_outputPath (renderer : Renderer) (settings : Settings) (job : ChartJob)
    {tree placed : FileTree} {placing : Except IoFault Unit}
    (hplace : tree.makeParent (settings.outputLocation job) = (placing, placed)) :
    (((FileTree.workspaceWith renderer).backend settings).outputPath job.output).run tree =
      ((placing.mapError .io).map fun _ => settings.outputLocation job, placed) := by
  have hlocation : Path.join settings.outputDir job.output = settings.outputLocation job := rfl
  unfold FileTree.makeParent at hplace
  unfold Workspace.backend Workspace.prepareOutput
  dsimp only
  rw [hlocation]
  cases hparent : Path.parent? (settings.outputLocation job) with
  | none =>
      rw [hparent] at hplace
      obtain ⟨rfl, rfl⟩ := Prod.mk.inj hplace
      rfl
  | some directory =>
      rw [hparent] at hplace
      dsimp only at hplace ⊢
      -- A path of one name has an empty parent, for which nothing is made.
      cases hempty : directory.isEmpty with
      | true =>
          rw [hempty, if_pos rfl] at hplace
          obtain ⟨rfl, rfl⟩ := Prod.mk.inj hplace
          rfl
      | false =>
          rw [hempty, if_neg Bool.false_ne_true] at hplace
          have hmake : ((FileTree.workspaceWith renderer).makeDirectories directory).run tree =
              (placing, placed) := hplace
          rw [if_neg Bool.false_ne_true, StateT.run_bind, hmake]
          cases placing <;> rfl

/-! ## Runs have the effects of their jobs -/

open Run

variable {renderer : Renderer} {assignment : Assignment}

theorem JobEffect.yields {job : ChartJob} {tree left : FileTree} {result : Except PlotError Unit}
    (heffect : JobEffect renderer assignment job tree result left) :
    Yields (assignment.runJob ((FileTree.workspaceWith renderer).backend assignment.settings) job)
      tree (result.map fun _ => assignment.settings.outputLocation job) left := by
  have hread := run_read renderer assignment.settings job tree
  cases heffect with
  | unbuilt hchart => exact yields_runJob_of_unbuilt hread hchart
  | unplaced hchart hplace =>
      apply yields_runJob_of_built hread hchart
      exact yields_load_of_error (run_outputPath renderer assignment.settings job hplace)
  | undrawn hchart hplace hdraw hreport | drawn hchart hplace hdraw hreport =>
      apply yields_runJob_of_built hread hchart
      exact yields_load_of_ok (run_outputPath renderer assignment.settings job hplace) hdraw hreport

theorem RunEffect.yields_mapM {jobs : List ChartJob} {tree left : FileTree}
    {result : Except PlotError Unit}
    (heffect : RunEffect renderer assignment jobs tree result left) :
    Yields
      (jobs.mapM
        (assignment.runJob ((FileTree.workspaceWith renderer).backend assignment.settings)))
      tree (result.map fun _ => jobs.map assignment.settings.outputLocation) left := by
  -- Each job starts from the tree that the one before has left, so the induction is on the effect.
  induction heffect with
  | done => exact yields_pure [] _
  | stopped hjob =>
      rw [List.mapM_cons]
      exact hjob.yields.bind_error
  | @next job jobs _ _ _ result hjob _ ih =>
      have hlocations : (result.map fun _ => (job :: jobs).map assignment.settings.outputLocation) =
          (result.map fun _ => jobs.map assignment.settings.outputLocation).map
            (assignment.settings.outputLocation job :: ·) := by
        cases result <;> rfl
      rw [List.mapM_cons, hlocations]
      apply hjob.yields.bind
      exact ih.bind_pure _

/-- A run that succeeds tells the place of each image, in the order of the jobs. -/
theorem RunEffect.yields {tree left : FileTree} {result : Except PlotError Unit}
    (heffect : RunEffect renderer assignment assignment.settings.charts tree result left) :
    Yields (assignment.run ((FileTree.workspaceWith renderer).backend assignment.settings)) tree
      (result.map fun _ => assignment.settings.charts.map assignment.settings.outputLocation)
      left :=
  yields_run heffect.yields_mapM

/-! ## Planning runs leave the tree as it is -/

theorem yields_planJobs (renderer : Renderer) (assignment : Assignment) (tree : FileTree)
    (jobs : List ChartJob) :
    Yields
      (jobs.mapM
        (assignment.planJob ((FileTree.workspaceWith renderer).backend assignment.settings)))
      tree (jobs.mapM (tree.planOf assignment)) tree := by
  induction jobs with
  | nil => exact yields_pure [] tree
  | cons job jobs ih =>
      have hjob : Yields
          (assignment.planJob ((FileTree.workspaceWith renderer).backend assignment.settings) job)
          tree (tree.planOf assignment job) tree :=
        yields_planJob (run_read renderer assignment.settings job tree)
      rw [List.mapM_cons, List.mapM_cons]
      apply hjob.bind_still
      intro plan
      exact ih.bind_pure _

theorem planOf_eq_ok_iff {assignment : Assignment} {tree : FileTree} {job : ChartJob}
    {plan : ChartPlan} :
    tree.planOf assignment job = .ok plan ↔
      ∃ chart, tree.chartOf assignment job = .ok chart ∧ assignment.planOf job chart = plan := by
  unfold FileTree.planOf
  cases tree.chartOf assignment job with
  | error e => simp [Except.map]
  | ok chart => simp [Except.map]

theorem mapM_planOf_eq_ok_iff {assignment : Assignment} {tree : FileTree} {jobs : List ChartJob}
    {plans : List ChartPlan} :
    jobs.mapM (tree.planOf assignment) = .ok plans ↔
      List.Forall₂ (fun job plan => tree.planOf assignment job = .ok plan) jobs plans := by
  induction jobs generalizing plans with
  | nil => simp [pure, Except.pure, eq_comm]
  | cons job jobs ih =>
      rw [List.mapM_cons, List.forall₂_cons_left_iff]
      simp only [← ih]
      cases tree.planOf assignment job with
      | error e => simp [bind, Except.bind]
      | ok plan =>
          cases jobs.mapM (tree.planOf assignment) with
          | error e => simp [bind, Except.bind]
          | ok plans => simp [bind, Except.bind, pure, Except.pure, eq_comm]

theorem exists_mapM_planOf_iff {assignment : Assignment} {tree : FileTree}
    {jobs : List ChartJob} :
    (∃ plans, jobs.mapM (tree.planOf assignment) = .ok plans) ↔
      ∀ job ∈ jobs, ∃ chart, tree.chartOf assignment job = .ok chart := by
  simp only [mapM_planOf_eq_ok_iff]
  induction jobs with
  | nil => simp
  | cons job jobs ih =>
      rw [List.forall_mem_cons, ← ih]
      constructor
      · rintro ⟨_, _ | ⟨hplan, hplans⟩⟩
        obtain ⟨chart, hchart, -⟩ := planOf_eq_ok_iff.mp hplan
        exact ⟨⟨chart, hchart⟩, _, hplans⟩
      · rintro ⟨⟨chart, hchart⟩, _, hplans⟩
        exact ⟨_, .cons (planOf_eq_ok_iff.mpr ⟨chart, hchart, rfl⟩) hplans⟩

end ThroughputPlot
