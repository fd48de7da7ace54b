import ThroughputPlot.Proofs.Numerals

/-!
# Placeholders in labels

The placeholders of a label are replaced one after the other, so that the second is looked for in a
text in which numbers already stand.  A number is not empty and has no character of a placeholder,
so that it neither begins nor completes one.  Two placeholders never overlap, since the brace that
opens them stands nowhere else in them.  Together this makes the two replacements a single pass.
-/

namespace ThroughputPlot

namespace Text

/-! ## Texts that are put in -/

/-- The text separates what stands around it: it is not empty and shares no character. -/
structure Separates (new pattern : List Char) : Prop where
  ne_nil : new ≠ []
  disjoint : new.Disjoint pattern

section

variable {pattern new : List Char}

theorem Separates.tail {c : Char} {body : List Char} (hnew : Separates new (c :: body)) :
    Separates new body where
  ne_nil := hnew.ne_nil
  disjoint := (List.disjoint_cons_right.mp hnew.disjoint).2

theorem Separates.not_isPrefix_append (hnew : Separates new pattern) (hne : pattern ≠ [])
    (rest : List Char) : ¬ pattern <+: new ++ rest := by
  intro hstarts
  obtain ⟨c, body, rfl⟩ := List.exists_cons_of_ne_nil hne
  obtain ⟨d, new, rfl⟩ := List.exists_cons_of_ne_nil hnew.ne_nil
  obtain ⟨rfl, -⟩ := List.cons_prefix_cons.mp hstarts
  exact hnew.disjoint List.mem_cons_self List.mem_cons_self

/-- What the result begins with, the text began with, if nothing that is put in takes part. -/
theorem isPrefix_of_isPrefix_replaceAll {front text : List Char} (hne : pattern ≠ [])
    (hnew : Separates new front) (hstarts : front <+: replaceAll pattern new text) :
    front <+: text := by
  induction front generalizing text with
  | nil => exact List.nil_prefix
  | cons c front ih =>
      by_cases hpattern : pattern <+: text
      · obtain ⟨rest, rfl⟩ := hpattern
        rw [replaceAll_append new hne] at hstarts
        exact absurd hstarts (hnew.not_isPrefix_append (List.cons_ne_nil c front) _)
      · cases text with
        | nil => exact hstarts
        | cons d rest =>
            rw [replaceAll_cons new hpattern] at hstarts
            obtain ⟨rfl, hrest⟩ := List.cons_prefix_cons.mp hstarts
            exact List.cons_prefix_cons.mpr ⟨rfl, ih hnew.tail hrest⟩

theorem isInfix_of_isInfix_append {front rest : List Char} (hne : pattern ≠ [])
    (hfront : front.Disjoint pattern) (hinside : pattern <:+: front ++ rest) :
    pattern <:+: rest := by
  induction front with
  | nil => exact hinside
  | cons c front ih =>
      obtain ⟨hc, hfront⟩ := List.disjoint_cons_left.mp hfront
      rw [List.cons_append, List.infix_cons_iff] at hinside
      rcases hinside with hstarts | hinside
      · obtain ⟨d, body, rfl⟩ := List.exists_cons_of_ne_nil hne
        obtain ⟨rfl, -⟩ := List.cons_prefix_cons.mp hstarts
        exact absurd List.mem_cons_self hc
      · exact ih hfront hinside

theorem not_isInfix_replaceAll (hne : pattern ≠ []) (hnew : Separates new pattern)
    (text : List Char) : ¬ pattern <:+: replaceAll pattern new text := by
  induction hlength : text.length using Nat.strong_induction_on generalizing text with
  | _ length ih =>
      by_cases hpattern : pattern <+: text
      · obtain ⟨rest, rfl⟩ := hpattern
        have hshorter : rest.length < length := by
          have hpos := List.length_pos_of_ne_nil hne
          rw [← hlength, List.length_append]
          omega
        rw [replaceAll_append new hne]
        intro hinside
        exact ih _ hshorter rest rfl (isInfix_of_isInfix_append hne hnew.disjoint hinside)
      · cases text with
        | nil =>
            intro hinside
            exact hne (List.infix_nil.mp hinside)
        | cons c rest =>
            have hshorter : rest.length < length := by
              rw [← hlength]
              exact Nat.lt_succ_self _
            have hbegins : ¬ pattern <+: replaceAll pattern new (c :: rest) :=
              fun hstarts => hpattern (isPrefix_of_isPrefix_replaceAll hne hnew hstarts)
            rw [replaceAll_cons new hpattern] at hbegins ⊢
            rw [List.infix_cons_iff, not_or]
            exact ⟨hbegins, ih _ hshorter rest rfl⟩

theorem replaceAll_eq_self (new : List Char) {text : List Char} (hnot : ¬ pattern <:+: text) :
    replaceAll pattern new text = text := by
  induction text with
  | nil => exact replaceAll_nil new
  | cons c rest ih =>
      rw [List.infix_cons_iff, not_or] at hnot
      rw [replaceAll_cons new hnot.1, ih hnot.2]

end

/-! ## Replacing two patterns at once -/

/-- The mark begins the pattern and stands nowhere else in it. -/
def OpensWith (mark : Char) (pattern : List Char) : Prop :=
  ∃ body, pattern = mark :: body ∧ mark ∉ body

/-- One pass from left to right, in which either pattern is replaced by its own text where it
stands in front, and any other character is copied. -/
inductive ReplacesEach (first new second new' : List Char) : List Char → List Char → Prop where
  | nil : ReplacesEach first new second new' [] []
  | first {rest out : List Char} (hrest : ReplacesEach first new second new' rest out) :
      ReplacesEach first new second new' (first ++ rest) (new ++ out)
  | second {rest out : List Char} (hrest : ReplacesEach first new second new' rest out) :
      ReplacesEach first new second new' (second ++ rest) (new' ++ out)
  | copied {c : Char} {rest out : List Char} (hfirst : ¬ first <+: c :: rest)
      (hsecond : ¬ second <+: c :: rest) (hrest : ReplacesEach first new second new' rest out) :
      ReplacesEach first new second new' (c :: rest) (c :: out)

section

variable {mark : Char} {first second new new' text out : List Char}

theorem OpensWith.ne_nil (hopens : OpensWith mark first) : first ≠ [] := by
  obtain ⟨body, rfl, -⟩ := hopens
  exact List.cons_ne_nil mark body

theorem OpensWith.mem (hopens : OpensWith mark first) : mark ∈ first := by
  obtain ⟨body, rfl, -⟩ := hopens
  exact List.mem_cons_self

theorem OpensWith.not_isPrefix {c : Char} (hopens : OpensWith mark first) (hc : c ≠ mark)
    (rest : List Char) : ¬ first <+: c :: rest := by
  obtain ⟨body, rfl, -⟩ := hopens
  intro hstarts
  exact hc (List.cons_prefix_cons.mp hstarts).1.symm

/-- A text without the mark is copied whole. -/
theorem OpensWith.replaceAll_append (hopens : OpensWith mark first) {front : List Char}
    (hfront : mark ∉ front) (rest : List Char) :
    replaceAll first new (front ++ rest) = front ++ replaceAll first new rest := by
  induction front with
  | nil => rfl
  | cons c front ih =>
      rw [List.mem_cons, not_or] at hfront
      have hnot := hopens.not_isPrefix (Ne.symm hfront.1) (front ++ rest)
      rw [List.cons_append, replaceAll_cons new hnot, ih hfront.2, List.cons_append]

/-- So is a pattern that opens with the mark too, if none of the two begins the other. -/
theorem OpensWith.replaceAll_other (hfirst : OpensWith mark first)
    (hsecond : OpensWith mark second) (hapart : ¬ first <+: second ∧ ¬ second <+: first)
    (rest : List Char) :
    replaceAll first new (second ++ rest) = second ++ replaceAll first new rest := by
  have hnot : ¬ first <+: second ++ rest := by
    intro hstarts
    rcases List.prefix_or_prefix_of_prefix hstarts (List.prefix_append second rest) with h | h
    · exact hapart.1 h
    · exact hapart.2 h
  obtain ⟨body, rfl, hbody⟩ := hsecond
  rw [List.cons_append] at hnot ⊢
  rw [replaceAll_cons new hnot, hfirst.replaceAll_append hbody, List.cons_append]

theorem ReplacesEach.swap (hpass : ReplacesEach first new second new' text out) :
    ReplacesEach second new' first new text out := by
  induction hpass with
  | nil => exact .nil
  | first _ ih => exact .second ih
  | second _ ih => exact .first ih
  | copied hfirst hsecond _ ih => exact .copied hsecond hfirst ih

theorem exists_replacesEach (hfirst : first ≠ []) (hsecond : second ≠ []) (text : List Char) :
    ∃ out, ReplacesEach first new second new' text out := by
  have hshorter {pattern rest : List Char} (hne : pattern ≠ []) :
      rest.length < (pattern ++ rest).length := by
    have hpos := List.length_pos_of_ne_nil hne
    rw [List.length_append]
    omega
  induction hlength : text.length using Nat.strong_induction_on generalizing text with
  | _ length ih =>
      by_cases hbegins : first <+: text
      · obtain ⟨rest, rfl⟩ := hbegins
        obtain ⟨out, hout⟩ := ih _ (hlength ▸ hshorter hfirst) rest rfl
        exact ⟨new ++ out, .first hout⟩
      by_cases hbegins' : second <+: text
      · obtain ⟨rest, rfl⟩ := hbegins'
        obtain ⟨out, hout⟩ := ih _ (hlength ▸ hshorter hsecond) rest rfl
        exact ⟨new' ++ out, .second hout⟩
      cases text with
      | nil => exact ⟨[], .nil⟩
      | cons c rest =>
          obtain ⟨out, hout⟩ := ih _ (hlength ▸ Nat.lt_succ_self rest.length) rest rfl
          exact ⟨c :: out, .copied hbegins hbegins' hout⟩

/-- The second replacement leaves alone what the first has put in, and finds what stood in the text
and nothing else. -/
theorem ReplacesEach.eq_replaceAll (hfirst : OpensWith mark first) (hsecond : OpensWith mark second)
    (hapart : ¬ first <+: second ∧ ¬ second <+: first) (hnew : Separates new second)
    (hpass : ReplacesEach first new second new' text out) :
    out = replaceAll second new' (replaceAll first new text) := by
  induction hpass with
  | nil => simp
  | first _ ih =>
      have hmark : mark ∉ new := fun hmem => hnew.disjoint hmem hsecond.mem
      rw [Text.replaceAll_append new hfirst.ne_nil, hsecond.replaceAll_append hmark, ih]
  | second _ ih =>
      rw [hfirst.replaceAll_other hsecond hapart, Text.replaceAll_append new' hsecond.ne_nil, ih]
  | @copied c rest _ hnot hnot' _ ih =>
      have hbegins : ¬ second <+: replaceAll first new (c :: rest) :=
        fun hstarts => hnot' (isPrefix_of_isPrefix_replaceAll hfirst.ne_nil hnew hstarts)
      rw [replaceAll_cons new hnot] at hbegins ⊢
      rw [replaceAll_cons new' hbegins, ih]

end

end Text

/-! ## The placeholders of a label -/

open Text (OpensWith ReplacesEach Separates)

theorem opensWith_keysPlaceholder : OpensWith '{' keysPlaceholder.toList :=
  ⟨_, rfl, by decide⟩

theorem opensWith_churnOpsPlaceholder : OpensWith '{' churnOpsPlaceholder.toList :=
  ⟨_, rfl, by decide⟩

theorem placeholders_apart :
    ¬ keysPlaceholder.toList <+: churnOpsPlaceholder.toList ∧
      ¬ churnOpsPlaceholder.toList <+: keysPlaceholder.toList := by
  decide

theorem mem_decimalText {n : Int64} {c : Char} (hc : c ∈ (decimalText n).toList) :
    c = '-' ∨ c.isDigit = true := by
  rw [Text.toList_decimalText] at hc
  split at hc
  · rcases List.mem_cons.mp hc with rfl | hc
    · exact .inl rfl
    · exact .inr (Text.isDigit_of_mem_toDigits hc)
  · exact .inr (Text.isDigit_of_mem_toDigits hc)

/-- A text of other characters than those of numbers is kept apart by a number. -/
theorem separates_decimalText (n : Int64) {pattern : List Char}
    (hpattern : pattern.all (fun c => c ≠ '-' && !c.isDigit) = true) :
    Separates (decimalText n).toList pattern where
  ne_nil := by
    have hdigits := (Text.isNumeral_toDigits n.toInt.natAbs).ne_nil
    rw [Text.toList_decimalText]
    split
    · exact List.cons_ne_nil _ _
    · exact hdigits
  disjoint := by
    intro c hnumber hmem
    have hother := List.all_eq_true.mp hpattern c hmem
    rcases mem_decimalText hnumber with rfl | hdigit
    · contradiction
    · simp [hdigit] at hother

theorem separates_keysPlaceholder (n : Int64) :
    Separates (decimalText n).toList keysPlaceholder.toList :=
  separates_decimalText n (by decide)

theorem separates_churnOpsPlaceholder (n : Int64) :
    Separates (decimalText n).toList churnOpsPlaceholder.toList :=
  separates_decimalText n (by decide)

namespace LabelValues

/-- The label that a single pass over the template writes. -/
def Fills (values : LabelValues) (template label : List Char) : Prop :=
  ReplacesEach keysPlaceholder.toList (decimalText values.numKeys).toList
    churnOpsPlaceholder.toList (decimalText values.numChurnOps).toList template label

/-- Like `apply`, with the other placeholder first. -/
def applyOpsFirst (values : LabelValues) (template : String) : String :=
  let withOps := Text.replaceAll churnOpsPlaceholder.toList
    (decimalText values.numChurnOps).toList template.toList
  String.ofList
    (Text.replaceAll keysPlaceholder.toList (decimalText values.numKeys).toList withOps)

variable {values : LabelValues} {template : String} {label : List Char}

theorem toList_apply (values : LabelValues) (template : String) :
    (values.apply template).toList =
      Text.replaceAll churnOpsPlaceholder.toList (decimalText values.numChurnOps).toList
        (Text.replaceAll keysPlaceholder.toList (decimalText values.numKeys).toList
          template.toList) :=
  String.toList_ofList

theorem toList_applyOpsFirst (values : LabelValues) (template : String) :
    (values.applyOpsFirst template).toList =
      Text.replaceAll keysPlaceholder.toList (decimalText values.numKeys).toList
        (Text.replaceAll churnOpsPlaceholder.toList (decimalText values.numChurnOps).toList
          template.toList) :=
  String.toList_ofList

theorem exists_fills (values : LabelValues) (template : List Char) :
    ∃ label, values.Fills template label :=
  Text.exists_replacesEach opensWith_keysPlaceholder.ne_nil opensWith_churnOpsPlaceholder.ne_nil
    template

theorem Fills.eq_apply (hfills : values.Fills template.toList label) :
    label = (values.apply template).toList := by
  rw [toList_apply]
  exact hfills.eq_replaceAll opensWith_keysPlaceholder opensWith_churnOpsPlaceholder
    placeholders_apart (separates_churnOpsPlaceholder _)

theorem Fills.eq_applyOpsFirst (hfills : values.Fills template.toList label) :
    label = (values.applyOpsFirst template).toList := by
  rw [toList_applyOpsFirst]
  exact hfills.swap.eq_replaceAll opensWith_churnOpsPlaceholder opensWith_keysPlaceholder
    placeholders_apart.symm (separates_keysPlaceholder _)

theorem apply_eq_applyOpsFirst (values : LabelValues) (template : String) :
    values.apply template = values.applyOpsFirst template := by
  obtain ⟨label, hfills⟩ := values.exists_fills template.toList
  exact String.toList_inj.mp (hfills.eq_apply.symm.trans hfills.eq_applyOpsFirst)

theorem not_isInfix_apply (values : LabelValues) (template : String) :
    ¬ keysPlaceholder.toList <:+: (values.apply template).toList ∧
      ¬ churnOpsPlaceholder.toList <:+: (values.apply template).toList := by
  constructor
  · rw [apply_eq_applyOpsFirst, toList_applyOpsFirst]
    exact Text.not_isInfix_replaceAll opensWith_keysPlaceholder.ne_nil
      (separates_keysPlaceholder _) _
  · rw [toList_apply]
    exact Text.not_isInfix_replaceAll opensWith_churnOpsPlaceholder.ne_nil
      (separates_churnOpsPlaceholder _) _

theorem apply_eq_self (values : LabelValues)
    (hkeys : ¬ keysPlaceholder.toList <:+: template.toList)
    (hops : ¬ churnOpsPlaceholder.toList <:+: template.toList) :
    values.apply template = template := by
  apply String.toList_inj.mp
  rw [toList_apply, Text.replaceAll_eq_self _ hkeys, Text.replaceAll_eq_self _ hops]

/-- A label is written in one pass, the order of the placeholders does not matter, none of them is
left, and so further values change nothing. -/
theorem apply_simultaneous (values : LabelValues) (template : String) :
    (∀ label, values.Fills template.toList label ↔ label = (values.apply template).toList) ∧
    values.apply template = values.applyOpsFirst template ∧
    ¬ keysPlaceholder.toList <:+: (values.apply template).toList ∧
    ¬ churnOpsPlaceholder.toList <:+: (values.apply template).toList ∧
    ∀ further : LabelValues,
      further.apply (values.apply template) = values.apply template := by
  obtain ⟨hkeys, hops⟩ := values.not_isInfix_apply template
  refine ⟨?_, values.apply_eq_applyOpsFirst template, hkeys, hops, ?_⟩
  · intro label
    constructor
    · exact Fills.eq_apply
    · rintro rfl
      obtain ⟨label, hfills⟩ := values.exists_fills template.toList
      rwa [← hfills.eq_apply]
  · intro further
    exact further.apply_eq_self hkeys hops

/-- Numbers stand where a placeholder is broken and where two of them meet. -/
example : (LabelValues.mk (-7) 3).apply
    "\x7bnum_\x7bnum_keys\x7dkeys\x7d \x7bnum_keys\x7d\x7bnum_churn_ops\x7d" =
      "\x7bnum_-7keys\x7d -73" := by
  decide +kernel

end LabelValues

end ThroughputPlot
