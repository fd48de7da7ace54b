import ThroughputPlot.Proofs.Calls

/-!
# Runs stop at the first failure

A job is read, built, given a place and drawn.  The trace of a job says which calls this takes
and what comes of them, with one rule for each stage at which the job can fail.  The trace of a
run goes on to the next job only when a job was drawn.  Every run has one trace, and it is what
the run does.
-/

namespace ThroughputPlot

variable {π : Type}

/-! ## The chart of a job -/

/-- The chart of a job from the input that the storage holds. -/
def Answers.chartOf (answers : Answers π) (assignment : Assignment) (job : ChartJob) :
    Except PlotError Chart :=
  (answers.read job.input).bind (assignment.chartOf job)

theorem Answers.chartOf_of_read {answers : Answers π} {assignment : Assignment} {job : ChartJob}
    {content : Bytes} (hread : answers.read job.input = .ok content) :
    answers.chartOf assignment job = assignment.chartOf job content := by
  rw [Answers.chartOf, hread]
  rfl

theorem Answers.chartOf_of_unread {answers : Answers π} {assignment : Assignment} {job : ChartJob}
    {e : PlotError} (hread : answers.read job.input = .error e) :
    answers.chartOf assignment job = .error e := by
  rw [Answers.chartOf, hread]
  rfl

/-! ## Traces -/

variable [ToString π]

inductive JobTrace (chartOf : ChartJob → Bytes → Except PlotError Chart) (answers : Answers π)
    (job : ChartJob) : List (Call π) → Except PlotError String → Prop where
  | unread {e : PlotError} (hread : answers.read job.input = .error e) :
      JobTrace chartOf answers job [.read job.input] (.error e)
  | unbuilt {content : Bytes} {e : PlotError} (hread : answers.read job.input = .ok content)
      (hchart : chartOf job content = .error e) :
      JobTrace chartOf answers job [.read job.input] (.error e)
  | unplaced {content : Bytes} {chart : Chart} {e : PlotError}
      (hread : answers.read job.input = .ok content) (hchart : chartOf job content = .ok chart)
      (hpath : answers.outputPath job.output = .error e) :
      JobTrace chartOf answers job [.read job.input, .outputPath job.output] (.error e)
  | undrawn {content : Bytes} {chart : Chart} {path : π} {e : PlotError}
      (hread : answers.read job.input = .ok content) (hchart : chartOf job content = .ok chart)
      (hpath : answers.outputPath job.output = .ok path)
      (hrender : (answers.render chart path).result = .error e) :
      JobTrace chartOf answers job
        [.read job.input, .outputPath job.output, .render chart path] (.error e)
  | drawn {content : Bytes} {chart : Chart} {path : π}
      (hread : answers.read job.input = .ok content) (hchart : chartOf job content = .ok chart)
      (hpath : answers.outputPath job.output = .ok path)
      (hrender : (answers.render chart path).result = .ok ()) :
      JobTrace chartOf answers job
        [.read job.input, .outputPath job.output, .render chart path] (.ok (toString path))

inductive RunTrace (chartOf : ChartJob → Bytes → Except PlotError Chart) (answers : Answers π) :
    List ChartJob → List (Call π) → Except PlotError (List String) → Prop where
  | done : RunTrace chartOf answers [] [] (.ok [])
  | stopped {job : ChartJob} {jobs : List ChartJob} {calls : List (Call π)} {e : PlotError}
      (hjob : JobTrace chartOf answers job calls (.error e)) :
      RunTrace chartOf answers (job :: jobs) calls (.error e)
  | next {job : ChartJob} {jobs : List ChartJob} {calls later : List (Call π)} {output : String}
      {result : Except PlotError (List String)}
      (hjob : JobTrace chartOf answers job calls (.ok output))
      (hjobs : RunTrace chartOf answers jobs later result) :
      RunTrace chartOf answers (job :: jobs) (calls ++ later) (result.map (output :: ·))

/-! ## Every run has a trace -/

theorem exists_jobTrace (chartOf : ChartJob → Bytes → Except PlotError Chart)
    (answers : Answers π) (job : ChartJob) :
    ∃ calls result, JobTrace chartOf answers job calls result := by
  cases hread : answers.read job.input with
  | error e => exact ⟨_, _, .unread hread⟩
  | ok content =>
      cases hchart : chartOf job content with
      | error e => exact ⟨_, _, .unbuilt hread hchart⟩
      | ok chart =>
          cases hpath : answers.outputPath job.output with
          | error e => exact ⟨_, _, .unplaced hread hchart hpath⟩
          | ok path =>
              cases hrender : (answers.render chart path).result with
              | error e => exact ⟨_, _, .undrawn hread hchart hpath hrender⟩
              | ok _ => exact ⟨_, _, .drawn hread hchart hpath hrender⟩

theorem exists_runTrace (chartOf : ChartJob → Bytes → Except PlotError Chart)
    (answers : Answers π) (jobs : List ChartJob) :
    ∃ calls result, RunTrace chartOf answers jobs calls result := by
  induction jobs with
  | nil => exact ⟨_, _, .done⟩
  | cons job jobs ih =>
      obtain ⟨calls, result, hjob⟩ := exists_jobTrace chartOf answers job
      cases result with
      | error e => exact ⟨_, _, .stopped hjob⟩
      | ok output =>
          obtain ⟨later, result, hjobs⟩ := ih
          exact ⟨_, _, .next hjob hjobs⟩

/-! ## A run does what its trace says -/

open Run

theorem performs_runJob_of_unbuilt {assignment : Assignment} {answers : Answers π}
    {job : ChartJob} {e : PlotError} (hchart : answers.chartOf assignment job = .error e) :
    Performs (assignment.runJob answers.backend job) [.read job.input] (.error e) :=
  performs_iff_yields.mpr fun _ => yields_runJob_of_unbuilt rfl hchart

/-- Once the chart is built, all depends on finding it a place and drawing it. -/
theorem performs_runJob_of_built {assignment : Assignment} {answers : Answers π}
    {job : ChartJob} {chart : Chart} {calls : List (Call π)} {result : Except PlotError String}
    (hchart : answers.chartOf assignment job = .ok chart)
    (hload : Performs (answers.backend.load job chart) calls result) :
    Performs (assignment.runJob answers.backend job) (.read job.input :: calls) result := by
  rw [performs_iff_yields] at hload ⊢
  intro before
  rw [List.append_cons]
  exact yields_runJob_of_built rfl hchart (hload _)

theorem JobTrace.performs {assignment : Assignment} {answers : Answers π} {job : ChartJob}
    {calls : List (Call π)} {result : Except PlotError String}
    (htrace : JobTrace assignment.chartOf answers job calls result) :
    Performs (assignment.runJob answers.backend job) calls result := by
  cases htrace with
  | unread hread => exact performs_runJob_of_unbuilt (Answers.chartOf_of_unread hread)
  | unbuilt hread hchart =>
      exact performs_runJob_of_unbuilt ((Answers.chartOf_of_read hread).trans hchart)
  | unplaced hread hchart hpath =>
      exact performs_runJob_of_built ((Answers.chartOf_of_read hread).trans hchart)
        (performs_load_of_error hpath _)
  | undrawn hread hchart hpath hrender =>
      exact performs_runJob_of_built ((Answers.chartOf_of_read hread).trans hchart)
        (performs_load_of_ok hpath hrender)
  | drawn hread hchart hpath hrender =>
      exact performs_runJob_of_built ((Answers.chartOf_of_read hread).trans hchart)
        (performs_load_of_ok hpath hrender)

theorem RunTrace.performs_mapM {assignment : Assignment} {answers : Answers π}
    {jobs : List ChartJob} {calls : List (Call π)} {result : Except PlotError (List String)}
    (htrace : RunTrace assignment.chartOf answers jobs calls result) :
    Performs (jobs.mapM (assignment.runJob answers.backend)) calls result := by
  induction htrace with
  | done => exact performs_pure []
  | stopped hjob =>
      rw [List.mapM_cons]
      exact hjob.performs.bind_error
  | next hjob _ ih =>
      rw [List.mapM_cons]
      apply hjob.performs.bind
      exact ih.bind_pure _

theorem RunTrace.performs {assignment : Assignment} {answers : Answers π}
    {calls : List (Call π)} {result : Except PlotError (List String)}
    (htrace : RunTrace assignment.chartOf answers assignment.settings.charts calls result) :
    Performs (assignment.run answers.backend) calls result := by
  have hjobs := htrace.performs_mapM
  rw [performs_iff_yields] at hjobs ⊢
  exact fun before => yields_run (hjobs before)

theorem observe_run_iff {assignment : Assignment} {answers : Answers π} {calls : List (Call π)}
    {result : Except PlotError (List String)} :
    observe (assignment.run answers.backend) = (result, calls) ↔
      RunTrace assignment.chartOf answers assignment.settings.charts calls result := by
  constructor
  · intro hobserve
    obtain ⟨calls', result', htrace⟩ :=
      exists_runTrace assignment.chartOf answers assignment.settings.charts
    rw [htrace.performs.observe_eq] at hobserve
    obtain ⟨rfl, rfl⟩ := Prod.mk.inj hobserve
    exact htrace
  · intro htrace
    exact htrace.performs.observe_eq

/-! ## Runs one after the other -/

section

variable {chartOf : ChartJob → Bytes → Except PlotError Chart} {answers : Answers π}

theorem RunTrace.append_of_error {first : List ChartJob} {calls : List (Call π)} {e : PlotError}
    (hfirst : RunTrace chartOf answers first calls (.error e)) (second : List ChartJob) :
    RunTrace chartOf answers (first ++ second) calls (.error e) := by
  generalize hresult : Except.error e = result at hfirst
  induction hfirst with
  | done => contradiction
  | stopped hjob => exact .stopped hjob
  | @next _ _ _ _ _ result hjob _ ih =>
      cases result with
      | error e' => exact .next hjob (ih hresult)
      | ok outputs => contradiction

theorem RunTrace.append {first second : List ChartJob} {calls later : List (Call π)}
    {outputs : List String} {result : Except PlotError (List String)}
    (hfirst : RunTrace chartOf answers first calls (.ok outputs))
    (hsecond : RunTrace chartOf answers second later result) :
    RunTrace chartOf answers (first ++ second) (calls ++ later)
      (result.map (outputs ++ ·)) := by
  generalize hresult : Except.ok outputs = done at hfirst
  induction hfirst generalizing outputs with
  | done =>
      obtain rfl : outputs = [] := Except.ok.inj hresult
      cases result <;> exact hsecond
  | stopped hjob => contradiction
  | @next _ _ _ _ output done hjob _ ih =>
      cases done with
      | error e' => contradiction
      | ok rest =>
          obtain rfl : outputs = output :: rest := Except.ok.inj hresult
          have hnext := RunTrace.next hjob (ih rfl)
          rw [List.append_assoc]
          cases result <;> exact hnext

/-- When nothing fails, every job has its path in the result, in the order of the jobs. -/
theorem RunTrace.outputs_displayed {jobs : List ChartJob} {calls : List (Call π)}
    {outputs : List String} (htrace : RunTrace chartOf answers jobs calls (.ok outputs)) :
    List.Forall₂
      (fun job output => ∃ path, answers.outputPath job.output = .ok path ∧ toString path = output)
      jobs outputs := by
  generalize hresult : Except.ok outputs = result at htrace
  induction htrace generalizing outputs with
  | done =>
      obtain rfl : outputs = [] := Except.ok.inj hresult
      exact .nil
  | stopped hjob => contradiction
  | @next _ _ _ _ output result hjob _ ih =>
      cases result with
      | error e => contradiction
      | ok rest =>
          obtain rfl : outputs = output :: rest := Except.ok.inj hresult
          cases hjob with
          | drawn _ _ hpath _ => exact .cons ⟨_, hpath, rfl⟩ (ih rfl)

end

def Assignment.withJobs (assignment : Assignment) (jobs : List ChartJob) : Assignment :=
  { assignment with settings := { assignment.settings with charts := jobs } }

theorem RunTrace.observe_withJobs {assignment : Assignment} {answers : Answers π}
    {jobs : List ChartJob} {calls : List (Call π)} {result : Except PlotError (List String)}
    (htrace : RunTrace assignment.chartOf answers jobs calls result) :
    observe ((assignment.withJobs jobs).run answers.backend) = (result, calls) :=
  (RunTrace.performs htrace).observe_eq

theorem observe_run_append (assignment : Assignment) (answers : Answers π)
    (first second : List ChartJob) :
    observe ((assignment.withJobs (first ++ second)).run answers.backend) =
      match observe ((assignment.withJobs first).run answers.backend) with
      | (.error e, calls) => (.error e, calls)
      | (.ok outputs, calls) =>
          let rest := observe ((assignment.withJobs second).run answers.backend)
          (rest.1.map (outputs ++ ·), calls ++ rest.2) := by
  obtain ⟨calls, result, hfirst⟩ := exists_runTrace assignment.chartOf answers first
  obtain ⟨later, result', hsecond⟩ := exists_runTrace assignment.chartOf answers second
  rw [hfirst.observe_withJobs, hsecond.observe_withJobs]
  cases result with
  | error e => exact (hfirst.append_of_error second).observe_withJobs
  | ok outputs => exact (hfirst.append hsecond).observe_withJobs

/--
For any storage, any renderer and any jobs, with or without monitoring, the calls and the result
of a run are those of its trace; a run that succeeds tells the displayed path of each job; and
jobs that follow others begin only when those have succeeded.
-/
theorem run_fails_fast (assignment : Assignment) (answers : Answers π) :
    (∀ calls result,
      observe (assignment.run answers.backend) = (result, calls) ↔
        RunTrace assignment.chartOf answers assignment.settings.charts calls result) ∧
    (∀ outputs, (observe (assignment.run answers.backend)).1 = .ok outputs →
      List.Forall₂
        (fun job output => ∃ path, answers.outputPath job.output = .ok path ∧
          toString path = output)
        assignment.settings.charts outputs) ∧
    ∀ first second,
      observe ((assignment.withJobs (first ++ second)).run answers.backend) =
        match observe ((assignment.withJobs first).run answers.backend) with
        | (.error e, calls) => (.error e, calls)
        | (.ok outputs, calls) =>
            let rest := observe ((assignment.withJobs second).run answers.backend)
            (rest.1.map (outputs ++ ·), calls ++ rest.2) := by
  refine ⟨fun calls result => observe_run_iff, ?_, observe_run_append assignment answers⟩
  intro outputs houtputs
  have htrace := observe_run_iff.mp (Prod.ext houtputs rfl)
  exact htrace.outputs_displayed

end ThroughputPlot
