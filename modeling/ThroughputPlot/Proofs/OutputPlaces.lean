import ThroughputPlot.FileTree
import ThroughputPlot.Proofs.Checks
import ThroughputPlot.Run
import Mathlib.Tactic

/-!
# The places of outputs

Validation compares outputs as texts, but a place is known by the components of its path, and
empty or dotted parts make none.  So two outputs that differ can lead to one place: when their
other parts agree, or when one of them is absolute and leads back into the output directory.
Nothing else brings two outputs together, and outputs that are spelled plainly stay apart.
-/

namespace ThroughputPlot

namespace Path

/-- The parts of a path that count. -/
def steps (path : String) : List (List Char) :=
  (parts path.toList).filter fun part => !part.isEmpty && part ≠ ['.']

/-- The component before the steps, for an absolute path and for one that starts with a dot. -/
def front (path : String) : List Component :=
  if isAbsolute path then [.root]
  else if (parts path.toList).head? = some ['.'] then [.current]
  else []

/-- Every part of the path counts; so the path is relative. -/
def IsPlain (path : String) : Prop :=
  ∀ part ∈ parts path.toList, part ≠ [] ∧ part ≠ ['.']

/-- The ways in which two paths, each joined to the directory, lead to one place. -/
@[mk_iff]
inductive Meet (directory first second : String) : Prop
  | respelled (hfront : isAbsolute first = isAbsolute second) (hsteps : steps first = steps second)
  | firstInside (hfirst : isAbsolute first = true) (hsecond : isAbsolute second = false)
      (hdirectory : isAbsolute directory = true)
      (hsteps : steps directory ++ steps second = steps first)
  | secondInside (hfirst : isAbsolute first = false) (hsecond : isAbsolute second = true)
      (hdirectory : isAbsolute directory = true)
      (hsteps : steps directory ++ steps first = steps second)

/-! ## The components of a joined path -/

theorem components_eq (path : String) : components path = front path ++ (steps path).map ofPart :=
  rfl

theorem ofPart_injective : Function.Injective ofPart := by
  intro first second heq
  unfold ofPart at heq
  split at heq <;> split at heq <;> simp_all

theorem ofPart_ne_root (part : List Char) : ofPart part ≠ .root := by
  unfold ofPart
  split <;> simp

section

variable {directory path : String}

theorem isAbsolute_join (hdirectory : directory ≠ "") (hpath : isAbsolute path = false) :
    isAbsolute (join directory path) = isAbsolute directory := by
  obtain ⟨c, rest, hlist⟩ :=
    List.exists_cons_of_ne_nil (mt String.toList_eq_nil_iff.mp hdirectory)
  unfold join
  rw [hpath, if_neg Bool.false_ne_true]
  split <;> simp [isAbsolute, hlist]

/-- The parts of a relative path follow those of the directory; a slash at the end of the
directory would only add an empty part. -/
theorem parts_join (hdirectory : directory ≠ "") (hpath : isAbsolute path = false) :
    ∃ base, base ≠ [] ∧ parts (join directory path).toList = base ++ parts path.toList ∧
      (parts directory.toList = base ∨ parts directory.toList = base ++ [[]]) := by
  unfold join
  rw [hpath, if_neg Bool.false_ne_true]
  by_cases hslash : directory.toList.getLast? = some '/'
  · obtain ⟨base, hbase⟩ := List.getLast?_eq_some_iff.mp hslash
    have hends : (directory.isEmpty || directory.toList.getLast? = some '/') = true := by
      simp [hslash]
    have hjoined : (directory ++ path).toList = base ++ '/' :: path.toList := by simp [hbase]
    rw [if_pos hends]
    refine ⟨parts base, Text.cutAt_ne_nil base, ?_, .inr ?_⟩
    · rw [hjoined, parts, Text.cutAt_append_mark]
      rfl
    · rw [hbase, parts, Text.cutAt_append_mark]
      rfl
  · have hends : ¬ (directory.isEmpty || directory.toList.getLast? = some '/') = true := by
      simp [hdirectory, hslash]
    have hjoined : (directory ++ "/" ++ path).toList = directory.toList ++ '/' :: path.toList := by
      simp
    rw [if_neg hends]
    refine ⟨parts directory.toList, Text.cutAt_ne_nil _, ?_, .inl rfl⟩
    rw [hjoined, parts, Text.cutAt_append_mark]
    rfl

theorem front_join (hdirectory : directory ≠ "") (hpath : isAbsolute path = false) :
    front (join directory path) = front directory := by
  obtain ⟨base, hbase, hparts, hends⟩ := parts_join hdirectory hpath
  obtain ⟨part, others, rfl⟩ := List.exists_cons_of_ne_nil hbase
  have hhead : (parts (join directory path).toList).head? = (parts directory.toList).head? := by
    rcases hends with hends | hends <;> simp [hparts, hends]
  rw [front, front, isAbsolute_join hdirectory hpath, hhead]

theorem steps_join (hdirectory : directory ≠ "") (hpath : isAbsolute path = false) :
    steps (join directory path) = steps directory ++ steps path := by
  obtain ⟨base, _, hparts, hends⟩ := parts_join hdirectory hpath
  rcases hends with hends | hends <;> simp [steps, hparts, hends]

theorem components_join (hdirectory : directory ≠ "") (hpath : isAbsolute path = false) :
    components (join directory path) = front directory ++ (steps directory ++ steps path).map ofPart := by
  rw [components_eq, front_join hdirectory hpath, steps_join hdirectory hpath]

theorem components_join_of_isAbsolute (hpath : isAbsolute path = true) :
    components (join directory path) = .root :: (steps path).map ofPart := by
  rw [components_eq, join, if_pos hpath, front, if_pos hpath]
  rfl

end

/-! ## Where two joined paths meet -/

theorem map_ofPart_eq_iff {first second : List (List Char)} :
    first.map ofPart = second.map ofPart ↔ first = second :=
  (List.map_injective_iff.mpr ofPart_injective).eq_iff

/-- Behind a directory, an absolute path can be met only if the directory is absolute too. -/
theorem front_append_eq_root_cons_iff {directory : String} {first second : List (List Char)} :
    front directory ++ first.map ofPart = .root :: second.map ofPart ↔
      isAbsolute directory = true ∧ first = second := by
  unfold front
  cases hdirectory : isAbsolute directory with
  | true => simp [map_ofPart_eq_iff]
  | false =>
      have hroot : ∀ rest, first.map ofPart ≠ .root :: rest := by
        intro rest heq
        obtain ⟨part, _, _, hpart, _⟩ := List.map_eq_cons_iff.mp heq
        exact ofPart_ne_root part hpart
      by_cases hdot : (parts directory.toList).head? = some ['.'] <;> simp [hdot, hroot]

/-- Paths that are joined to a directory have the same components only where they meet. -/
theorem components_join_eq_iff {directory first second : String} (hdirectory : directory ≠ "") :
    components (join directory first) = components (join directory second) ↔
      Meet directory first second := by
  rw [meet_iff]
  cases hfirst : isAbsolute first with
  | false =>
      rw [components_join hdirectory hfirst]
      cases hsecond : isAbsolute second with
      | false =>
          rw [components_join hdirectory hsecond, List.append_cancel_left_eq, map_ofPart_eq_iff]
          simp
      | true =>
          rw [components_join_of_isAbsolute hsecond, front_append_eq_root_cons_iff]
          simp
  | true =>
      rw [components_join_of_isAbsolute hfirst]
      cases hsecond : isAbsolute second with
      | false =>
          rw [components_join hdirectory hsecond, eq_comm, front_append_eq_root_cons_iff]
          simp
      | true =>
          rw [components_join_of_isAbsolute hsecond, List.cons_inj_right, map_ofPart_eq_iff]
          simp

/-! ## Plain spelling -/

theorem IsPlain.steps_eq {path : String} (hplain : IsPlain path) :
    steps path = parts path.toList := by
  unfold steps
  rw [List.filter_eq_self]
  intro part hpart
  simpa using hplain part hpart

theorem IsPlain.isAbsolute_eq {path : String} (hplain : IsPlain path) :
    isAbsolute path = false := by
  by_contra habsolute
  obtain ⟨text, htext⟩ : ∃ text, path.toList = '/' :: text := by
    cases hlist : path.toList <;> simp_all [isAbsolute]
  have hempty : [] ∈ parts path.toList := by
    rw [htext, parts, Text.cutAt_cons, if_pos rfl]
    exact List.mem_cons_self
  exact (hplain [] hempty).1 rfl

theorem Meet.eq_of_isPlain {directory first second : String} (hmeet : Meet directory first second)
    (hfirst : IsPlain first) (hsecond : IsPlain second) : first = second := by
  cases hmeet with
  | respelled _ hsteps =>
      rw [hfirst.steps_eq, hsecond.steps_eq] at hsteps
      have htexts : ['/'].intercalate (parts first.toList) =
          ['/'].intercalate (parts second.toList) :=
        congrArg _ hsteps
      rw [parts, parts, Text.intercalate_cutAt, Text.intercalate_cutAt] at htexts
      exact String.toList_inj.mp htexts
  | firstInside habsolute => simp [hfirst.isAbsolute_eq] at habsolute
  | secondInside _ habsolute => simp [hsecond.isAbsolute_eq] at habsolute

end Path

/-! ## The outputs of accepted settings -/

/-- Different charts of accepted settings have outputs that differ as texts.  They lead to one
place if and only if the outputs meet, and never if both are spelled plainly. -/
theorem Settings.components_outputLocation_eq_iff {settings : Settings}
    (hvalid : settings.validate = .ok ()) {i j : ℕ} (hij : i ≠ j) {first second : ChartJob}
    (hfirst : settings.charts[i]? = some first) (hsecond : settings.charts[j]? = some second) :
    first.output ≠ second.output ∧
    (Path.components (settings.outputLocation first) =
        Path.components (settings.outputLocation second) ↔
      Path.Meet settings.outputDir first.output second.output) ∧
    (Path.IsPlain first.output → Path.IsPlain second.output →
      Path.components (settings.outputLocation first) ≠
        Path.components (settings.outputLocation second)) := by
  obtain ⟨_, hpath, _, _, hcharts⟩ := Settings.validate_eq_ok_iff.mp hvalid
  have hdirectory : settings.outputDir ≠ "" := (Check.path_eq_ok_iff.mp hpath).1
  have hunique : (settings.charts.map (·.output)).Nodup := (Check.charts_eq_ok_iff.mp hcharts).2.2.2
  have hdiffer : first.output ≠ second.output := by
    intro hsame
    have hlength : i < (settings.charts.map (·.output)).length := by
      simpa using (List.getElem?_eq_some_iff.mp hfirst).1
    apply hij
    apply (List.getElem?_inj hlength hunique).mp
    rw [List.getElem?_map, List.getElem?_map, hfirst, hsecond, Option.map_some, Option.map_some,
      hsame]
  have hmeet : Path.components (settings.outputLocation first) =
      Path.components (settings.outputLocation second) ↔
        Path.Meet settings.outputDir first.output second.output :=
    Path.components_join_eq_iff hdirectory
  refine ⟨hdiffer, hmeet, fun hplain hother heq => ?_⟩
  exact hdiffer ((hmeet.mp heq).eq_of_isPlain hplain hother)

/-- Two charts for one place, which one of the outputs names by its absolute path. -/
def Settings.crossing : Settings where
  inputDir := "."
  outputDir := "/plots"
  width := defaultWidth
  height := defaultHeight
  allSeries := false
  charts := [{ ChartJob.insert with output := "rhm.png" },
    { ChartJob.churn with output := "/plots//rhm.png" }]

theorem Settings.crossing_shares_place :
    Settings.crossing.validate = .ok () ∧
    ∃ first second, Settings.crossing.charts[0]? = some first ∧
      Settings.crossing.charts[1]? = some second ∧
      Path.components (Settings.crossing.outputLocation first) =
        Path.components (Settings.crossing.outputLocation second) := by
  have hvalid : Settings.crossing.validate = .ok () := by decide +kernel
  refine ⟨hvalid, _, _, rfl, rfl, ?_⟩
  apply (Settings.components_outputLocation_eq_iff hvalid Nat.zero_ne_one rfl rfl).2.1.mpr
  exact .secondInside (by decide) (by decide) (by decide) (by decide +kernel)

/-- Two charts for one place, which one of the outputs spells with a dot. -/
def Settings.respelled : Settings :=
  { Settings.crossing with
    outputDir := "plots"
    charts := [{ ChartJob.insert with output := "rhm.png" },
      { ChartJob.churn with output := "./rhm.png" }] }

/-- A directory with a table for each of the two charts. -/
def FileTree.measured : FileTree :=
  .ofFiles "/bench" [("rhm-insert.txt", Utf8.encode "x_0 y_0\n1 2\n"),
    ("rhm-churn.txt", Utf8.encode "x_0 y_0\n3 4\n")]

def FileTree.images (tree : FileTree) : List Place :=
  (tree.nodes.filter fun node => node.2 matches .image ..).map (·.1)

/-- The settings are accepted and the run tells of two images, but leaves only one. -/
theorem Settings.respelled_overwrites :
    Settings.respelled.validate = .ok () ∧
    (∃ first second, Settings.respelled.charts[0]? = some first ∧
      Settings.respelled.charts[1]? = some second ∧
      Path.components (Settings.respelled.outputLocation first) =
        Path.components (Settings.respelled.outputLocation second)) ∧
    let assignment : Assignment := ⟨Settings.respelled, ⟨1, 2⟩, false⟩
    let backend := (FileTree.workspaceWith (FileTree.draw .png)).backend Settings.respelled
    let left := ((assignment.run backend).run.run []).run FileTree.measured
    left.1.1.toOption = some ["plots/rhm.png", "plots/./rhm.png"] ∧
      left.2.images = [["bench".toList, "plots".toList, "rhm.png".toList]] := by
  refine ⟨by decide +kernel, ⟨_, _, rfl, rfl, by decide +kernel⟩, ?_⟩
  decide +kernel

end ThroughputPlot
