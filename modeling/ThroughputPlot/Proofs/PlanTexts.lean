import ThroughputPlot.Proofs.ChartAxes
import ThroughputPlot.Proofs.DryRun
import ThroughputPlot.Proofs.WrittenJson
import ThroughputPlot.Proofs.WrittenNumbers
import ThroughputPlot.Session

/-!
# Plans as JSON

A planning run prints its plans as one text.  The text is read back as an array with an object for
each job, in which every string is the one in the plan and each end of a range is a number that
reads as that end.  For the numbers it matters that the ends are finite, and they are, because they
come from the axes of a chart that was built.
-/

namespace ThroughputPlot

open Run

/-! ## Plans that can be written -/

namespace Json

theorem toList_integer (n : ℕ) : (toString (n : ℤ)).toList = Nat.toDigits 10 n := by
  rw [Int.toString_eq_repr]
  exact Nat.toList_repr

theorem isWritable_integer (depth n : ℕ) : IsWritable depth (.integer n) := by
  simp only [integer, IsWritable, toList_integer]
  exact NumberText.exists_text_eq_toDigits n

/-- The value of the only member with a key. -/
def member? (key : String) : Json → Option Json
  | .object members =>
    match members.filter (·.1 = some key) with
    | [(_, value)] => some value
    | _ => none
  | _ => none

/-- Two numbers stand under a key that read as the ends of a range. -/
def ShowsRange (object : Json) (key : String) (range : AxisRange) : Prop :=
  ∃ start stop : String, object.member? key = some (.array [.number start, .number stop]) ∧
    Binary64.ofLiteral? start.toList = some range.start ∧
    Binary64.ofLiteral? stop.toList = some range.stop

structure ShowsPlan (object : Json) (plan : ChartPlan) : Prop where
  name : object.member? "name" = some (.text plan.name)
  input : object.member? "input" = some (.text plan.input)
  output : object.member? "output" = some (.text plan.output)
  xLabel : object.member? "x_label" = some (.text plan.xLabel)
  yLabel : object.member? "y_label" = some (.text plan.yLabel)
  series : object.member? "series" = some (.array (plan.series.map .text))
  points : ∃ literal : String, object.member? "points" = some (.number literal) ∧
    Text.natural? literal.toList = some plan.points
  xRange : object.ShowsRange "x_range" plan.xRange
  yRange : object.ShowsRange "y_range" plan.yRange

end Json

theorem Binary64.exists_toJson {x : Binary64} (hx : x.isFinite = true) :
    ∃ n : NumberText, x.toJson = .number (String.ofList n.text) ∧
      Binary64.ofLiteral? n.text = some x := by
  obtain ⟨negative, m, rfl⟩ := exists_of_isFinite hx
  obtain ⟨n, htext, hread⟩ := planNumber.exists_numberText negative m
  refine ⟨n, ?_, hread⟩
  rw [toJson, if_pos hx, ← htext, String.ofList_toList]

/-- The ends of a range are numbers. -/
structure AxisRange.Finite (range : AxisRange) : Prop where
  start : range.start.isFinite = true
  stop : range.stop.isFinite = true

theorem Axis.finite_range (values : List Binary64) : (Axis.range values).Finite :=
  ⟨(Axis.range_covers values).start_finite, (Axis.range_covers values).stop_finite⟩

theorem AxisRange.Finite.isWritable {range : AxisRange} (h : range.Finite) (depth : ℕ) :
    Json.IsWritable (depth + 1) range.toJson := by
  obtain ⟨start, hstart, -⟩ := Binary64.exists_toJson h.start
  obtain ⟨stop, hstop, -⟩ := Binary64.exists_toJson h.stop
  simp [toJson, hstart, hstop, Json.IsWritable]

theorem AxisRange.Finite.showsRange {range : AxisRange} (h : range.Finite) {object : Json}
    {key : String} (hmember : object.member? key = some range.toJson) :
    object.ShowsRange key range := by
  obtain ⟨start, hstart, hread⟩ := Binary64.exists_toJson h.start
  obtain ⟨stop, hstop, hread'⟩ := Binary64.exists_toJson h.stop
  refine ⟨String.ofList start.text, String.ofList stop.text, ?_, ?_, ?_⟩
  · rw [hmember, toJson, hstart, hstop]
  · rw [String.toList_ofList, hread]
  · rw [String.toList_ofList, hread']

/-- The ranges of a plan have finite ends. -/
structure ChartPlan.Finite (plan : ChartPlan) : Prop where
  xRange : plan.xRange.Finite
  yRange : plan.yRange.Finite

namespace ChartPlan

variable {plan : ChartPlan}

theorem Finite.isWritable (h : plan.Finite) : Json.IsWritable 2 plan.toJson := by
  have hx := h.xRange.isWritable 0
  have hy := h.yRange.isWritable 0
  have hpoints := Json.isWritable_integer 1 plan.points
  simp [toJson, Json.record, Json.IsWritable, Json.isWritable_text, hx, hy, hpoints]

theorem Finite.showsPlan (h : plan.Finite) : plan.toJson.ShowsPlan plan where
  name := rfl
  input := rfl
  output := rfl
  xLabel := rfl
  yLabel := rfl
  series := rfl
  points := by
    refine ⟨toString (plan.points : ℤ), rfl, ?_⟩
    rw [Json.toList_integer]
    exact Text.natural?_eq_some_iff.mpr (Text.isNumeral_toDigits plan.points)
  xRange := h.xRange.showsRange rfl
  yRange := h.yRange.showsRange rfl

end ChartPlan

theorem finite_of_forall₂ {α : Type} {R : α → ChartPlan → Prop} {xs : List α}
    {plans : List ChartPlan} (h : List.Forall₂ R xs plans)
    (hfinite : ∀ x plan, R x plan → plan.Finite) : ∀ plan ∈ plans, plan.Finite := by
  induction h with
  | nil => exact nofun
  | cons hplan _ ih => exact List.forall_mem_cons.mpr ⟨hfinite _ _ hplan, ih⟩

theorem isWritable_plans {plans : List ChartPlan} (h : ∀ plan ∈ plans, plan.Finite) :
    Json.IsWritable 3 (.array (plans.map ChartPlan.toJson)) := by
  intro item hitem
  obtain ⟨plan, hplan, rfl⟩ := List.mem_map.mp hitem
  exact (h plan hplan).isWritable

/-! ## Planning from a state -/

/-- What an action comes to from a state, if nothing happened before. -/
def Run.resultFrom {σ α : Type} (action : Run (StateM σ) α) (before : σ) : Except PlotError α :=
  ((action.run.run []).run before).1.1

theorem Run.Yields.resultFrom_eq {σ α : Type} {action : Run (StateM σ) α} {before after : σ}
    {result : Except PlotError α} (h : Yields action before result after) :
    action.resultFrom before = result := by
  obtain ⟨events, hrun⟩ := h []
  rw [resultFrom, hrun]

theorem Chart.finite_of_build {job : ChartJob} {table : Table} {labels : LabelValues}
    {allSeries : Bool} {chart : Chart}
    (hbuild : (build job table labels allSeries).result = .ok chart) :
    chart.xRange.Finite ∧ chart.yRange.Finite := by
  obtain ⟨series, -, rfl, -, -⟩ := build_eq_ok_iff.mp hbuild
  exact ⟨Axis.finite_range _, Axis.finite_range _⟩

theorem Assignment.finite_planOf {assignment : Assignment} {job : ChartJob} {content : Bytes}
    {chart : Chart} (hchart : assignment.chartOf job content = .ok chart) :
    (assignment.planOf job chart).Finite := by
  unfold chartOf at hchart
  cases htable : (Table.read job.input (Utf8.decodeLossy content)).result with
  | error e =>
      rw [htable] at hchart
      contradiction
  | ok table =>
      rw [htable] at hchart
      obtain ⟨hx, hy⟩ := Chart.finite_of_build hchart
      exact ⟨hx, hy⟩

section

variable {σ π : Type} (assignment : Assignment) (backend : Backend (StateM σ) π)

/-- A plan of a chart that was built from what the storage gave in some state. -/
def Assignment.PlansFrom (job : ChartJob) (plan : ChartPlan) : Prop :=
  ∃ state after content chart, (backend.read job.input).run state = (.ok content, after) ∧
    assignment.chartOf job content = .ok chart ∧ plan = assignment.planOf job chart ∧
    plan.points = (chart.series.map (·.points.length)).sum

theorem exists_yields_planJob (job : ChartJob) (before : σ) :
    ∃ result after, Yields (assignment.planJob backend job) before result after ∧
      ∀ plan, result = .ok plan → assignment.PlansFrom backend job plan := by
  cases hread : (backend.read job.input).run before with
  | mk content after =>
      refine ⟨_, after, yields_planJob hread, ?_⟩
      intro plan hplan
      cases content with
      | error e => contradiction
      | ok content =>
          cases hchart : assignment.chartOf job content with
          | error e =>
              rw [Except.bind, hchart] at hplan
              contradiction
          | ok chart =>
              rw [Except.bind, hchart] at hplan
              obtain rfl := Except.ok.inj hplan
              exact ⟨before, after, content, chart, hread, hchart, rfl, List.length_flatMap⟩

theorem exists_yields_planJobs (jobs : List ChartJob) (before : σ) :
    ∃ result after, Yields (jobs.mapM (assignment.planJob backend)) before result after ∧
      ∀ plans, result = .ok plans → List.Forall₂ (assignment.PlansFrom backend) jobs plans := by
  induction jobs generalizing before with
  | nil =>
      refine ⟨.ok [], before, yields_pure [] before, ?_⟩
      rintro _ ⟨⟩
      exact .nil
  | cons job jobs ih =>
      obtain ⟨result, middle, hjob, hplans⟩ := exists_yields_planJob assignment backend job before
      rw [List.mapM_cons]
      cases result with
      | error e => exact ⟨.error e, middle, hjob.bind_error, nofun⟩
      | ok plan =>
          obtain ⟨rest, after, hjobs, hall⟩ := ih middle
          refine ⟨rest.map (plan :: ·), after, hjob.bind (hjobs.bind_pure _), ?_⟩
          intro plans hrest
          cases rest with
          | error e => contradiction
          | ok more =>
              obtain rfl : plan :: more = plans := Except.ok.inj hrest
              exact .cons (hplans plan rfl) (hall more rfl)

variable {assignment} {backend}

theorem Assignment.PlansFrom.finite {job : ChartJob} {plan : ChartPlan}
    (h : assignment.PlansFrom backend job plan) : plan.Finite := by
  obtain ⟨_, _, _, chart, _, hchart, rfl, _⟩ := h
  exact finite_planOf hchart

end

theorem Session.yields_planLines_of_plan {σ : Type} {assignment : Assignment}
    {backend : Backend (StateM σ)} {before after : σ} {plans : List ChartPlan}
    (h : Yields (assignment.plan backend) before (.ok plans) after) :
    Yields (planLines assignment backend) before
      (.ok [(Json.array (plans.map ChartPlan.toJson)).indented]) after := by
  unfold planLines
  apply (yields_log _ _ _ _).bind
  exact h.bind_pure _

/--
Whatever the storage does, a planning run that succeeds prints one text.  It is read as an array
with one object for each job, in the order of the jobs, and each object shows the plan of its job.
The compact form of the same plans is read alike.
-/
theorem Session.planLines_show_plans {σ : Type} (assignment : Assignment)
    (backend : Backend (StateM σ)) (before : σ) {plans : List ChartPlan}
    (hplan : (assignment.plan backend).resultFrom before = .ok plans) :
    ∃ (text : String) (objects : List Json),
      (planLines assignment backend).resultFrom before = .ok [text] ∧
      Json.read? text.toList = some (.array objects) ∧
      Json.read? (Json.array (plans.map ChartPlan.toJson)).compact.toList =
        some (.array objects) ∧
      List.Forall₂ Json.ShowsPlan objects plans ∧
      List.Forall₂ (assignment.PlansFrom backend) assignment.settings.charts plans := by
  obtain ⟨result, after, hyields, hall⟩ :=
    exists_yields_planJobs assignment backend assignment.settings.charts before
  obtain rfl : result = .ok plans := hyields.resultFrom_eq.symm.trans hplan
  have hplans := hall plans rfl
  have hfinite := finite_of_forall₂ hplans fun _ _ => Assignment.PlansFrom.finite
  have hwritable := isWritable_plans hfinite
  have hshows : List.Forall₂ Json.ShowsPlan (plans.map ChartPlan.toJson) plans := by
    rw [List.forall₂_map_left_iff, List.forall₂_same]
    exact fun plan hplan => (hfinite plan hplan).showsPlan
  exact ⟨_, plans.map ChartPlan.toJson, (yields_planLines_of_plan hyields).resultFrom_eq,
    Json.read?_indented hwritable, Json.read?_compact hwritable, hshows, hplans⟩

/-- A workspace with quotes, backslashes and control characters in the names of columns. -/
def Workspace.quoted : Workspace Id :=
  { Workspace.uniform with
    readFile := fun _ => .ok (Utf8.encode "x\\0 \"y\"\x01 x_1 y_1\n0.1 1e-7 -3 4\n5 6 nan 1e300\n") }

/-- One chart of that workspace, with all series, whose own strings need escapes too. -/
def Assignment.quoted : Assignment where
  settings := ⟨"bench", "plots", defaultWidth, defaultHeight, true,
    [⟨"a \"chart\"", "new\nline.txt", "tab\t.png", "x\\0", "\"y\"\x01", "größe \x7bnum_keys\x7d",
      "\\\x1f𝄞", none⟩]⟩
  labels := ⟨1000, 500⟩
  monitor := true

theorem Session.planLines_show_plans_quoted :
    let assignment := Assignment.quoted
    let backend := (Workspace.quoted.answers assignment.settings).backend
    ∃ (plans : List ChartPlan) (text : String) (objects : List Json),
      (assignment.plan backend).resultFrom [] = .ok plans ∧
      plans.map (fun plan => (plan.xLabel, plan.series, plan.points)) =
        [("größe 1000", ["\"y\"\x01", "y_1"], 3)] ∧
      (planLines assignment backend).resultFrom [] = .ok [text] ∧
      Json.read? text.toList = some (.array objects) ∧
      List.Forall₂ Json.ShowsPlan objects plans := by
  intro assignment backend
  have hshown : ((assignment.plan backend).resultFrom []).toOption.map
      (·.map fun plan => (plan.xLabel, plan.series, plan.points)) =
        some [("größe 1000", ["\"y\"\x01", "y_1"], 3)] := by
    decide +kernel
  cases hplan : (assignment.plan backend).resultFrom [] with
  | error e =>
      rw [hplan] at hshown
      contradiction
  | ok plans =>
      rw [hplan] at hshown
      obtain ⟨text, objects, htext, hread, -, hshows, -⟩ :=
        planLines_show_plans assignment backend [] hplan
      exact ⟨plans, text, objects, rfl, Option.some.inj hshown, htext, hread, hshows⟩

end ThroughputPlot
