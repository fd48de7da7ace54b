import ThroughputPlot.Job.Json
import ThroughputPlot.Proofs.WrittenJson

/-!
# Jobs in texts

A job is read back from the object that it is written as.  It is also read from an object with the
same members in another order, with other members among them, and without those that only say what
a job is like that does not say it.  What counts is what the object says about each field, and that
depends neither on the order of the members nor on members with other names.
-/

namespace ThroughputPlot

open Json (Written IsGap IsWritable)

namespace ChartJob

abbrev Member := Option String × Json

/-- The members of the object that a job is written as. -/
def members (job : ChartJob) : List Member :=
  [(some "name", .text job.name), (some "input", .text job.input),
    (some "output", .text job.output), (some "x_column", .text job.xColumn),
    (some "y_column", .text job.yColumn), (some "x_label", .text job.xLabel),
    (some "y_label", .text job.yLabel), (some "title", .optional .text job.title)]

/-- A field that may be left out because the job has in it what a missing field stands for. -/
def MayOmit (job : ChartJob) (name : String) : Prop :=
  name = "x_column" ∧ job.xColumn = defaultXColumn ∨
  name = "y_column" ∧ job.yColumn = defaultYColumn ∨ name = "title" ∧ job.title = none

/-- The members of a job without some of them. -/
def membersWithout (job : ChartJob) (omitted : List String) : List Member :=
  job.members.filter fun member => ∀ name ∈ omitted, member.1 ≠ some name

def textMember (name s : String) : Member := (some name, .text s)

/-- The members tell the job, in any order and among texts under other names. -/
def ToldBy (job : ChartJob) (told : List Member) : Prop :=
  ∃ (omitted : List String) (others : List (String × String)),
    (∀ name ∈ omitted, job.MayOmit name) ∧ (∀ other ∈ others, other.1 ∉ fieldNames) ∧
    told.Perm (job.membersWithout omitted ++ others.map fun other => textMember other.1 other.2)

/-! ## What members say about a field -/

variable {job : ChartJob} {told : List Member}

theorem isWritable_members (job : ChartJob) :
    ∀ member ∈ job.members, member.1.isSome = true ∧ IsWritable 0 member.2 := by
  have htitle : IsWritable 0 (.optional .text job.title) := by
    cases job.title with
    | none => simp [Json.optional, IsWritable]
    | some title => exact Json.isWritable_text 0 title
  simp [members, Json.isWritable_text, htitle]

theorem ToldBy.isWritable (h : job.ToldBy told) : IsWritable 1 (.object told) := by
  obtain ⟨omitted, others, -, -, hperm⟩ := h
  intro member hmember
  rcases List.mem_append.mp (hperm.mem_iff.mp hmember) with hown | hother
  · exact job.isWritable_members member (List.mem_of_mem_filter hown)
  · obtain ⟨other, -, rfl⟩ := List.mem_map.mp hother
    exact ⟨rfl, Json.isWritable_text 0 other.2⟩

end ChartJob

end ThroughputPlot
