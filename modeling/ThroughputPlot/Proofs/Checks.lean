import ThroughputPlot.Validation
import Mathlib.Tactic

/-!
# What the checks accept

A check that consists of others accepts what all of them accept, so the settings that pass
validation are known from what the single checks ask for.
-/

namespace ThroughputPlot

namespace Check

theorem bind_eq_ok_iff {first second : Check} :
    (first >>= fun _ => second) = .ok () ↔ first = .ok () ∧ second = .ok () := by
  cases first with
  | error e => simp [bind, Except.bind]
  | ok _ => simp [bind, Except.bind]

theorem require_eq_ok_iff {condition : Bool} {field value reason : String} :
    require condition field value reason = .ok () ↔ condition = true := by
  cases condition <;> simp [require]

theorem path_eq_ok_iff {field value : String} :
    path field value = .ok () ↔ value ≠ "" ∧ '\x00' ∉ value.toList := by
  unfold path
  rw [bind_eq_ok_iff, require_eq_ok_iff, require_eq_ok_iff]
  simp

theorem firstRepeated?_eq_none_iff {seen values : List String} :
    firstRepeated? seen values = none ↔ values.Nodup ∧ seen.Disjoint values := by
  induction values generalizing seen with
  | nil => simp [firstRepeated?]
  | cons value rest ih =>
      rw [firstRepeated?, List.nodup_cons, List.disjoint_cons_right]
      by_cases hseen : value ∈ seen
      · simp [hseen]
      · rw [if_neg (by simpa using hseen), ih, List.disjoint_cons_left]
        tauto

theorem unique_eq_ok_iff {field : String} {values : List String} :
    unique field values = .ok () ↔ values.Nodup := by
  have hrepeated : firstRepeated? [] values = none ↔ values.Nodup ∧ List.Disjoint [] values :=
    firstRepeated?_eq_none_iff
  unfold unique
  cases hfirst : firstRepeated? [] values <;> simpa [hfirst] using hrepeated

theorem charts_eq_ok_iff {jobs : List ChartJob} :
    charts jobs = .ok () ↔ jobs ≠ [] ∧ eachChart jobs = .ok () ∧ (jobs.map (·.name)).Nodup ∧
      (jobs.map (·.output)).Nodup := by
  unfold charts
  cases jobs with
  | nil => simp
  | cons job rest =>
      rw [List.isEmpty_cons, if_neg Bool.false_ne_true, bind_eq_ok_iff, bind_eq_ok_iff,
        unique_eq_ok_iff, unique_eq_ok_iff]
      simp

end Check

theorem Settings.validate_eq_ok_iff {settings : Settings} :
    settings.validate = .ok () ↔
      Check.path "input_dir" settings.inputDir = .ok () ∧
      Check.path "output_dir" settings.outputDir = .ok () ∧
      Check.integerWithin "render.width" settings.width.toNat Check.minImageSide
        Check.maxImageSide = .ok () ∧
      Check.integerWithin "render.height" settings.height.toNat Check.minImageSide
        Check.maxImageSide = .ok () ∧
      Check.charts settings.charts = .ok () := by
  unfold Settings.validate
  simp only [Check.bind_eq_ok_iff]

end ThroughputPlot
