import ThroughputPlot.Proofs.OutputPlaces
import ThroughputPlot.Proofs.Validity

/-!
# File names of outputs

An output is checked by the extension of its file name, and that is the last part of the path that
counts.  Slashes and dots behind it are passed over.  So whatever ends in the name of a png file is
accepted, but so is the name with a trail of slashes behind it, which ends in a separator or a dot.
-/

namespace ThroughputPlot

namespace Path

open Check (lowerCase)

/-! ## Texts that end in a file name -/

/-- The text behind the last slash is a stem and the extension png, in capital or small letters. -/
def EndsInPng (text : List Char) : Prop :=
  ∃ directory stem extension, text = directory ++ (stem ++ '.' :: extension) ∧
    (directory = [] ∨ directory.getLast? = some '/') ∧ '/' ∉ stem ∧ stem ≠ [] ∧
    lowerCase extension = "png"

/-- Slashes, with nothing or a dot behind each. -/
inductive IsTrail : List Char → Prop
  | nil : IsTrail []
  | slash {trail : List Char} (htrail : IsTrail trail) : IsTrail ('/' :: trail)
  | dot {trail : List Char} (htrail : IsTrail trail) : IsTrail ('/' :: '.' :: trail)

theorem lowerCase_eq_png_iff {extension : List Char} :
    lowerCase extension = "png" ↔ extension.map Char.toLower = ['p', 'n', 'g'] := by
  rw [← String.toList_inj, lowerCase, String.toList_ofList]
  rfl

theorem not_mem_of_lowerCase {extension : List Char} {c : Char}
    (hextension : lowerCase extension = "png") (hc : c.toLower ∉ ['p', 'n', 'g']) :
    c ∉ extension := by
  intro hmem
  have hlower : c.toLower ∈ extension.map Char.toLower := List.mem_map_of_mem hmem
  rw [lowerCase_eq_png_iff.mp hextension] at hlower
  exact hc hlower

theorem IsTrail.getLast? {trail : List Char} (htrail : IsTrail trail) :
    trail = [] ∨ trail.getLast? = some '/' ∨ trail.getLast? = some '.' := by
  induction htrail with
  | nil => exact .inl rfl
  | slash _ ih =>
      rcases ih with rfl | hlast | hlast
      · simp
      · simp [List.getLast?_cons, hlast]
      · simp [List.getLast?_cons, hlast]
  | dot _ ih =>
      rcases ih with rfl | hlast | hlast
      · simp
      · simp [List.getLast?_cons, hlast]
      · simp [List.getLast?_cons, hlast]

theorem EndsInPng.getLast?_ne {text : List Char} (hpng : EndsInPng text) :
    text.getLast? ≠ some '/' ∧ text.getLast? ≠ some '.' := by
  obtain ⟨directory, stem, extension, rfl, -, -, -, hextension⟩ := hpng
  have hslash : '/' ∉ extension := not_mem_of_lowerCase hextension (by decide)
  have hdot : '.' ∉ extension := not_mem_of_lowerCase hextension (by decide)
  rcases List.eq_nil_or_concat extension with rfl | ⟨front, last, rfl⟩
  · contradiction
  · have hlast : (directory ++ (stem ++ '.' :: (front.concat last))).getLast? = some last := by
      rw [← List.getLast?_concat (l := directory ++ (stem ++ '.' :: front))]
      simp
    rw [hlast, Ne, Option.some.injEq, Ne, Option.some.injEq]
    constructor
    · rintro rfl
      simp at hslash
    · rintro rfl
      simp at hdot

/-! ## The last part that counts -/

def counts (part : List Char) : Bool := !part.isEmpty && part ≠ ['.']

theorem steps_eq (path : String) : steps path = (parts path.toList).filter counts := rfl

theorem parts_append_slash (text rest : List Char) :
    parts (text ++ '/' :: rest) = parts text ++ parts rest :=
  Text.cutAt_append_mark text rest

/-- A trail adds only parts that count for nothing. -/
theorem IsTrail.filter_parts {trail : List Char} (htrail : IsTrail trail) (text : List Char) :
    (parts (text ++ trail)).filter counts = (parts text).filter counts := by
  induction htrail generalizing text with
  | nil => rw [List.append_nil]
  | @slash trail _ ih =>
      have hempty : (parts []).filter counts = [] := by decide
      calc
        (parts (text ++ '/' :: trail)).filter counts =
            (parts ((text ++ ['/']) ++ trail)).filter counts := by simp
        _ = (parts (text ++ ['/'])).filter counts := ih _
        _ = (parts text).filter counts := by
            rw [parts_append_slash, List.filter_append, hempty, List.append_nil]
  | @dot trail _ ih =>
      have hdot : (parts ['.']).filter counts = [] := by decide
      calc
        (parts (text ++ '/' :: '.' :: trail)).filter counts =
            (parts ((text ++ ['/', '.']) ++ trail)).filter counts := by simp
        _ = (parts (text ++ ['/', '.'])).filter counts := ih _
        _ = (parts text).filter counts := by
            rw [parts_append_slash, List.filter_append, hdot, List.append_nil]

theorem isTrail_flatMap {ends : List (List Char)} (hends : ∀ part ∈ ends, ¬ counts part = true) :
    IsTrail (ends.flatMap ('/' :: ·)) := by
  induction ends with
  | nil => exact .nil
  | cons part ends ih =>
      obtain ⟨hpart, hothers⟩ := List.forall_mem_cons.mp hends
      have hcases : part = [] ∨ part = ['.'] := by
        simpa [counts, ← or_iff_not_imp_left] using hpart
      rw [List.flatMap_cons]
      rcases hcases with rfl | rfl
      · exact .slash (ih hothers)
      · exact .dot (ih hothers)

/-- A text in front of and behind one of its parts. -/
theorem intercalate_append_cons (before after : List (List Char)) (part : List Char) :
    ['/'].intercalate (before ++ part :: after) =
      before.flatMap (· ++ ['/']) ++ (part ++ after.flatMap ('/' :: ·)) := by
  induction before with
  | nil =>
      induction after generalizing part with
      | nil => simp
      | cons next after ih =>
          have hnext := ih next
          rw [List.nil_append] at hnext ⊢
          rw [List.intercalate_cons_cons, hnext]
          simp
  | cons first before ih =>
      obtain ⟨next, others, hcons⟩ := List.exists_cons_of_ne_nil
        (List.append_ne_nil_of_right_ne_nil before (List.cons_ne_nil part after))
      rw [List.cons_append, hcons, List.intercalate_cons_cons, ← hcons, ih]
      simp

/-- The last part that counts has a directory before it and a trail behind it. -/
theorem getLast?_filter_parts_iff {text part : List Char} :
    ((parts text).filter counts).getLast? = some part ↔
      counts part = true ∧ '/' ∉ part ∧ ∃ directory trail, text = directory ++ (part ++ trail) ∧
        (directory = [] ∨ directory.getLast? = some '/') ∧ IsTrail trail := by
  constructor
  · intro hlast
    obtain ⟨others, hothers⟩ := List.getLast?_eq_some_iff.mp hlast
    obtain ⟨before, rest, hparts, -, hrest⟩ := List.filter_eq_append_iff.mp hothers
    obtain ⟨skipped, after, rfl, -, hcounts, hafter⟩ := List.filter_eq_cons_iff.mp hrest
    have hmem : part ∈ parts text := by simp [hparts]
    refine ⟨hcounts, Text.not_mem_of_mem_cutAt hmem, (before ++ skipped).flatMap (· ++ ['/']),
      after.flatMap ('/' :: ·), ?_, ?_, isTrail_flatMap (List.filter_eq_nil_iff.mp hafter)⟩
    · rw [← intercalate_append_cons, List.append_assoc, ← hparts]
      exact (Text.intercalate_cutAt text).symm
    · rcases List.eq_nil_or_concat (before ++ skipped) with hnil | ⟨front, last, hconcat⟩
      · simp [hnil]
      · simp [hconcat]
  · rintro ⟨hcounts, hslash, directory, trail, rfl, hdirectory, htrail⟩
    have hpart : parts part = [part] := Text.cutAt_of_not_mem hslash
    rw [← List.append_assoc, htrail.filter_parts]
    rcases hdirectory with rfl | hdirectory
    · simp [hpart, hcounts]
    · obtain ⟨front, rfl⟩ := List.getLast?_eq_some_iff.mp hdirectory
      rw [List.append_assoc, List.singleton_append, parts_append_slash, hpart]
      simp [hcounts]

/-! ## The file name and its extension -/

theorem fileName?_eq_some_iff {path : String} {name : List Char} :
    fileName? path = some name ↔
      ((parts path.toList).filter counts).getLast? = some name ∧ name ≠ ['.', '.'] := by
  rw [fileName?, components_eq, steps_eq, List.getLast?_append, List.getLast?_map]
  cases hlast : ((parts path.toList).filter counts).getLast? with
  | none =>
      unfold front
      split_ifs <;> simp
  | some part =>
      rw [Option.map_some, Option.some_or, ofPart]
      by_cases hparent : part = ['.', '.']
      · simp [hparent, eq_comm]
      · simp [hparent]
        grind

theorem extension?_eq_some_iff {path : String} {extension : List Char} :
    extension? path = some extension ↔
      '.' ∉ extension ∧ ∃ stem, stem ≠ [] ∧
        fileName? path = some (stem ++ '.' :: extension) := by
  rw [extension?]
  constructor
  · intro hextension
    obtain ⟨name, hname, hcut⟩ := Option.bind_eq_some_iff.mp hextension
    dsimp only at hcut
    split at hcut
    next c reversed hdrop =>
      split at hcut
      · contradiction
      next hempty =>
        obtain rfl := Option.some.inj hcut
        obtain ⟨-, hdot, hreverse⟩ := Text.eq_append_of_dropWhile hdrop
        refine ⟨by simpa using hdot, reversed.reverse, by simpa using hempty, ?_⟩
        rw [hname]
        have hname' := congrArg List.reverse hreverse
        simpa using hname'
    · contradiction
  · rintro ⟨hdot, stem, hstem, hname⟩
    have hreverse : (stem ++ '.' :: extension).reverse =
        extension.reverse ++ '.' :: stem.reverse := by simp
    have hdot' : '.' ∉ extension.reverse := by simpa using hdot
    rw [hname, Option.bind_some, hreverse]
    dsimp only
    rw [Text.takeWhile_ne_append hdot', Text.dropWhile_ne_append hdot']
    simp [hstem]

/-- The extension is png where the path ends in the name of a png file and a trail. -/
theorem isPng_iff_trail {path : String} :
    Check.IsPng path ↔
      ∃ text trail, path.toList = text ++ trail ∧ EndsInPng text ∧ IsTrail trail := by
  constructor
  · rintro ⟨extension, hextension, hpng⟩
    obtain ⟨hdot, stem, hstem, hname⟩ := extension?_eq_some_iff.mp hextension
    obtain ⟨hlast, -⟩ := fileName?_eq_some_iff.mp hname
    obtain ⟨-, hslash, directory, trail, htext, hdirectory, htrail⟩ :=
      getLast?_filter_parts_iff.mp hlast
    refine ⟨directory ++ (stem ++ '.' :: extension), trail, by simp [htext], ?_, htrail⟩
    refine ⟨directory, stem, extension, rfl, hdirectory, ?_, hstem, hpng⟩
    exact fun hmem => hslash (List.mem_append_left _ hmem)
  · rintro ⟨text, trail, htext, ⟨directory, stem, extension, rfl, hdirectory, hslash, hstem, hpng⟩,
      htrail⟩
    have hdot : '.' ∉ extension := not_mem_of_lowerCase hpng (by decide)
    have hslash' : '/' ∉ extension := not_mem_of_lowerCase hpng (by decide)
    have hne : extension ≠ [] := by
      rintro rfl
      contradiction
    refine ⟨extension, extension?_eq_some_iff.mpr ⟨hdot, stem, hstem, ?_⟩, hpng⟩
    have hcounts : counts (stem ++ '.' :: extension) = true := by
      cases stem with
      | nil => contradiction
      | cons c stem => simp [counts]
    have hparent : stem ++ '.' :: extension ≠ ['.', '.'] := by
      intro heq
      have hlength := congrArg List.length heq
      have hstemLength := List.length_pos_of_ne_nil hstem
      have hextensionLength := List.length_pos_of_ne_nil hne
      simp at hlength
      omega
    have hpart : '/' ∉ stem ++ '.' :: extension := by
      simp [hslash, hslash']
    refine fileName?_eq_some_iff.mpr ⟨getLast?_filter_parts_iff.mpr ⟨hcounts, hpart, directory,
      trail, ?_, hdirectory, htrail⟩, hparent⟩
    rw [htext, List.append_assoc]

end Path

namespace Check

open ThroughputPlot.Path (EndsInPng IsTrail)

/-- An output is accepted if it ends in the name of a png file, but for slashes and dots behind.
The text itself ends so where no separator or dot component is at its end. -/
theorem fileExtension_ok_iff_trail (field value : String) :
    (fileExtension field value ["png"] = .ok () ↔
      ∃ text trail, value.toList = text ++ trail ∧ EndsInPng text ∧ IsTrail trail) ∧
    (EndsInPng value.toList ↔
      fileExtension field value ["png"] = .ok () ∧ value.toList.getLast? ≠ some '/' ∧
        value.toList.getLast? ≠ some '.') := by
  have haccepts : fileExtension field value ["png"] = .ok () ↔
      ∃ text trail, value.toList = text ++ trail ∧ EndsInPng text ∧ IsTrail trail :=
    (decides_fileExtension field value).ok_iff.trans Path.isPng_iff_trail
  refine ⟨haccepts, ?_⟩
  rw [haccepts]
  constructor
  · intro hpng
    exact ⟨⟨value.toList, [], by simp, hpng, .nil⟩, hpng.getLast?_ne⟩
  · rintro ⟨⟨text, trail, htext, hpng, htrail⟩, hslash, hdot⟩
    rcases htrail.getLast? with rfl | hlast | hlast
    · rwa [htext, List.append_nil]
    · rw [htext, List.getLast?_append, hlast] at hslash
      exact absurd rfl hslash
    · rw [htext, List.getLast?_append, hlast] at hdot
      exact absurd rfl hdot

theorem fileExtension_slash :
    fileExtension "charts.output" "plot.png/" ["png"] = .ok () ∧
      ¬ EndsInPng "plot.png/".toList := by
  refine ⟨by decide, fun hpng => hpng.getLast?_ne.1 ?_⟩
  decide

end Check

end ThroughputPlot
