import ThroughputPlot.Environment
import ThroughputPlot.Text.Cut
import Mathlib.Data.List.TakeWhile
import Mathlib.Tactic

/-!
# References to the environment

A reference is found by its opening, and its name goes on to the next closing brace.  An opening
that nothing closes therefore takes in whatever comes behind it, up to the end of the next
reference and with it.  Apart from that each reference is replaced by itself: the text before it
and the text behind it are expanded as if they stood alone.
-/

namespace ThroughputPlot.Environment

/-! ## References in a text -/

theorem writeReference_append (name after : List Char) :
    writeReference name ++ after = '$' :: '{' :: (name ++ '}' :: after) := by
  simp [writeReference]

theorem reference?_writeReference_append {name : List Char} (hne : name ≠ []) (hname : '}' ∉ name)
    (after : List Char) : reference? (writeReference name ++ after) = some (name, after) := by
  rw [writeReference_append, reference?, Text.takeWhile_ne_append hname after,
    Text.dropWhile_ne_append hname after]
  simp [hne]

theorem eq_of_reference? {text name after : List Char}
    (href : reference? text = some (name, after)) :
    name ≠ [] ∧ '}' ∉ name ∧ text = writeReference name ++ after := by
  unfold reference? at href
  split at href
  next rest =>
    dsimp only at href
    split at href
    next c after' hdrop =>
      split at href
      · contradiction
      next hempty =>
        obtain ⟨rfl, rfl⟩ := Prod.mk.inj (Option.some.inj href)
        obtain ⟨rfl, hclosed, hrest⟩ := Text.eq_append_of_dropWhile hdrop
        refine ⟨by simpa using hempty, hclosed, ?_⟩
        rw [writeReference_append, ← hrest]
    · contradiction
  · contradiction

theorem reference?_eq_none_of_not_mem {text : List Char} (htext : '}' ∉ text) :
    reference? text = none := by
  cases href : reference? text with
  | none => rfl
  | some found =>
      obtain ⟨_, _, rfl⟩ := eq_of_reference? href
      simp [writeReference] at htext

/-! ## Expanding step by step -/

variable {value : String → Option String}

def replacement (value : String → Option String) (name : List Char) : List Char :=
  match value (String.ofList name) with
  | some v => v.toList
  | none => writeReference name

theorem expand_nil : expand value [] = [] := by
  rw [expand]
  rfl

theorem expand_of_reference? {text name after : List Char}
    (href : reference? text = some (name, after)) :
    expand value text = replacement value name ++ expand value after := by
  rw [expand]
  split
  next name' after' href' =>
    obtain ⟨rfl, rfl⟩ := Prod.mk.inj (Option.some.inj (href'.symm.trans href))
    rfl
  next href' =>
    rw [href'] at href
    contradiction

theorem expand_cons_of_none {c : Char} {rest : List Char}
    (href : reference? (c :: rest) = none) :
    expand value (c :: rest) = c :: expand value rest := by
  rw [expand]
  split
  next name' after' href' =>
    rw [href'] at href
    contradiction
  next href' => rfl

theorem expand_writeReference_append {name : List Char} (hne : name ≠ []) (hname : '}' ∉ name)
    (after : List Char) :
    expand value (writeReference name ++ after) = replacement value name ++ expand value after :=
  expand_of_reference? (reference?_writeReference_append hne hname after)

theorem expand_of_not_mem {text : List Char} (htext : '}' ∉ text) : expand value text = text := by
  induction text with
  | nil => exact expand_nil
  | cons c rest ih =>
      have hrest : '}' ∉ rest := fun hmem => htext (List.mem_cons_of_mem c hmem)
      rw [expand_cons_of_none (reference?_eq_none_of_not_mem htext), ih hrest]

/-! ## Openings that nothing closes -/

/-- The text opens a name and does not close it. -/
def LeftOpen (text : List Char) : Prop :=
  ∃ front rest, text = front ++ '$' :: '{' :: rest ∧ '}' ∉ rest

def opensName : List Char → Bool
  | '$' :: '{' :: rest => decide ('}' ∉ rest)
  | _ => false

theorem opensName_iff {text : List Char} :
    opensName text = true ↔ ∃ rest, text = '$' :: '{' :: rest ∧ '}' ∉ rest := by
  unfold opensName
  split
  next rest => simp
  next hother =>
    constructor
    · intro hfalse
      contradiction
    · rintro ⟨rest, htext, _⟩
      exact absurd htext (hother rest)

theorem exists_mem_tails_iff_leftOpen {text : List Char} :
    (∃ suffix ∈ text.tails, opensName suffix = true) ↔ LeftOpen text := by
  simp only [List.mem_tails, opensName_iff]
  constructor
  · rintro ⟨suffix, ⟨front, rfl⟩, rest, rfl, hrest⟩
    exact ⟨front, rest, rfl, hrest⟩
  · rintro ⟨front, rest, rfl, hrest⟩
    exact ⟨_, ⟨front, rfl⟩, rest, rfl, hrest⟩

instance (text : List Char) : Decidable (LeftOpen text) :=
  decidable_of_iff _ exists_mem_tails_iff_leftOpen

theorem LeftOpen.append_left {text : List Char} (hopen : LeftOpen text) (before : List Char) :
    LeftOpen (before ++ text) := by
  obtain ⟨front, rest, rfl, hrest⟩ := hopen
  exact ⟨before ++ front, rest, (List.append_assoc ..).symm, hrest⟩

/-- Of the openings that nothing closes, the first comes after closed text. -/
theorem LeftOpen.exists_first {text : List Char} (hopen : LeftOpen text) :
    ∃ front rest, text = front ++ '$' :: '{' :: rest ∧ '}' ∉ rest ∧ ¬ LeftOpen front := by
  obtain ⟨front, rest, htext, hrest⟩ := hopen
  induction hlength : front.length using Nat.strong_induction_on generalizing front rest with
  | _ length ih =>
      by_cases hfront : LeftOpen front
      · obtain ⟨front', rest', rfl, hrest'⟩ := hfront
        have hshorter : front'.length < length := by
          rw [← hlength]
          simp
        have hall : '}' ∉ rest' ++ '$' :: '{' :: rest := by
          simp [hrest, hrest']
        exact ih _ hshorter front' (rest' ++ '$' :: '{' :: rest) (by simp [htext]) hall rfl
      · exact ⟨front, rest, htext, hrest, hfront⟩

theorem reference?_append_eq_none {c : Char} {text rest : List Char}
    (hclosed : ¬ LeftOpen (c :: text)) (hrest : rest.head? ≠ some '{')
    (href : reference? (c :: text) = none) : reference? (c :: text ++ rest) = none := by
  cases hfound : reference? (c :: text ++ rest) with
  | none => rfl
  | some found =>
      obtain ⟨name, after⟩ := found
      -- A reference that begins here has its brace here too, and so it was found before.
      obtain ⟨hne, hname, hall⟩ := eq_of_reference? hfound
      rw [writeReference_append] at hall
      obtain ⟨rfl, htail⟩ := List.cons.inj hall
      cases text with
      | nil =>
          have hbrace : rest = '{' :: (name ++ '}' :: after) := htail
          rw [hbrace] at hrest
          exact absurd rfl hrest
      | cons d text =>
          obtain ⟨hd, hbehind⟩ := List.cons.inj htail
          subst hd
          have hmem : '}' ∈ text := by
            by_contra hnot
            exact hclosed ⟨[], text, rfl, hnot⟩
          obtain ⟨more, rfl, _⟩ | ⟨more, rfl, hmore⟩ := List.append_eq_append_iff.mp hbehind
          · exact absurd (List.mem_append_left more hmem) hname
          · cases more with
            | nil =>
                rw [List.append_nil] at hmem
                contradiction
            | cons e more =>
                obtain ⟨rfl, _⟩ := List.cons.inj hmore
                have hbefore := reference?_writeReference_append hne hname more
                rw [writeReference_append, href] at hbefore
                contradiction

/-- What stands behind a closed text is expanded as if it stood alone. -/
theorem expand_append {before rest : List Char} (hclosed : ¬ LeftOpen before)
    (hrest : rest.head? ≠ some '{') :
    expand value (before ++ rest) = expand value before ++ expand value rest := by
  induction hlength : before.length using Nat.strong_induction_on generalizing before with
  | _ length ih =>
      cases before with
      | nil => rw [expand_nil, List.nil_append, List.nil_append]
      | cons c text =>
          cases href : reference? (c :: text) with
          | none =>
              have hnone := reference?_append_eq_none hclosed hrest href
              have htext : ¬ LeftOpen text := fun hopen => hclosed (hopen.append_left [c])
              have hshorter : text.length < length := by
                rw [← hlength]
                exact Nat.lt_succ_self _
              have happend := ih _ hshorter htext rfl
              rw [List.cons_append] at hnone
              rw [expand_cons_of_none href, List.cons_append, expand_cons_of_none hnone, happend,
                List.cons_append]
          | some found =>
              obtain ⟨name, after⟩ := found
              obtain ⟨hne, hname, htext⟩ := eq_of_reference? href
              have hshorter : after.length < length := by
                rw [← hlength]
                exact length_of_reference? href
              have hafter : ¬ LeftOpen after := by
                intro hopen
                apply hclosed
                rw [htext]
                exact hopen.append_left _
              have happend := ih _ hshorter hafter rfl
              rw [expand_of_reference? href, htext, List.append_assoc,
                expand_writeReference_append hne hname, happend, List.append_assoc]

/-! ## What becomes of a reference -/

theorem expand_reference_of_closed {before name : List Char} (hclosed : ¬ LeftOpen before)
    (hne : name ≠ []) (hname : '}' ∉ name) (after : List Char) :
    expand value (before ++ writeReference name ++ after) =
      expand value before ++ replacement value name ++ expand value after := by
  have hhead : (writeReference name ++ after).head? ≠ some '{' := by
    rw [writeReference_append]
    simp
  rw [List.append_assoc, expand_append hclosed hhead, expand_writeReference_append hne hname,
    List.append_assoc]

/-- The opening takes the reference in, and nothing is replaced unless the longer name is set. -/
theorem expand_reference_of_open {before name : List Char} (hopen : LeftOpen before)
    (hname : '}' ∉ name) (after : List Char) :
    ∃ longer, name.length < longer.length ∧
      (value (String.ofList longer) = none →
        expand value (before ++ writeReference name ++ after) =
          expand value before ++ writeReference name ++ expand value after) := by
  obtain ⟨front, rest, rfl, hrest, hfront⟩ := hopen.exists_first
  refine ⟨rest ++ '$' :: '{' :: name, by simp; omega, ?_⟩
  intro hunset
  have hlonger : '}' ∉ rest ++ '$' :: '{' :: name := by simp [hrest, hname]
  have htext : front ++ '$' :: '{' :: rest ++ writeReference name ++ after =
      front ++ writeReference (rest ++ '$' :: '{' :: name) ++ after := by
    simp [writeReference]
  have hhead : ('$' :: '{' :: rest).head? ≠ some '{' := by simp
  have hopening : '}' ∉ '$' :: '{' :: rest := by simp [hrest]
  have hcopied : replacement value (rest ++ '$' :: '{' :: name) =
      '$' :: '{' :: rest ++ writeReference name := by
    rw [replacement, hunset]
    simp [writeReference]
  rw [htext, expand_reference_of_closed hfront (by simp) hlonger, hcopied,
    expand_append hfront hhead, expand_of_not_mem hopening]
  simp

theorem get?_singleton (name v : String) : get? [(name, v)] name = some v := by
  simp [get?]

theorem get?_singleton_of_longer {name longer : List Char} (hlonger : name.length < longer.length) :
    get? [(String.ofList name, "")] (String.ofList longer) = none := by
  have hprefix : ¬ longer ++ ['='] <+: name ++ ['='] := by
    intro hle
    have hlength := hle.length_le
    simp only [List.length_append] at hlength
    omega
  simp [get?, hprefix]

/-- A reference is replaced by the value of its variable, in every environment that sets it, if
and only if the text before it leaves no name open. -/
theorem expand_reference_iff {before name : List Char} (hne : name ≠ []) (hname : '}' ∉ name)
    (after : List Char) :
    (∀ (environment : Environment) (v : String),
      environment.get? (String.ofList name) = some v →
        expand environment.get? (before ++ writeReference name ++ after) =
          expand environment.get? before ++ v.toList ++ expand environment.get? after) ↔
      ¬ LeftOpen before := by
  constructor
  · intro hreplaced hopen
    -- The empty value is shorter than any reference, and it is set for no longer name.
    obtain ⟨longer, hlonger, hcopied⟩ := expand_reference_of_open hopen hname after
    have hunset := hcopied (get?_singleton_of_longer hlonger)
    have hset := hreplaced [(String.ofList name, "")] "" (get?_singleton _ _)
    have hlength := congrArg List.length (hunset.symm.trans hset)
    simp only [writeReference, List.length_append, List.length_cons] at hlength
    have hempty : "".toList.length = 0 := rfl
    omega
  · intro hclosed environment v hset
    have hvalue : replacement environment.get? name = v.toList := by
      rw [replacement, hset]
    rw [expand_reference_of_closed hclosed hne hname, hvalue]

def closedLines : List Char := "# $\x7bHOME\x7d costs $5 \x7b\n[paths]\ninput_dir = \"".toList

theorem expand_reference_closedLines :
    ¬ LeftOpen closedLines ∧
      expand (get? [("BENCH_DIR", "bench")])
          (closedLines ++ writeReference "BENCH_DIR".toList ++ ['"', '\n']) =
        expand (get? [("BENCH_DIR", "bench")]) closedLines ++ "bench".toList ++
          expand (get? [("BENCH_DIR", "bench")]) ['"', '\n'] := by
  have hclosed : ¬ LeftOpen closedLines := by decide +kernel
  refine ⟨hclosed, ?_⟩
  exact (expand_reference_iff (by decide) (by decide) _).mpr hclosed _ _ (get?_singleton _ _)

/-- The comment opens a name, which then goes on to the end of the reference. -/
def openComment : List Char := "# names open with $\x7b\n[paths]\ninput_dir = \"".toList

theorem expand_reference_openComment :
    get? [("BENCH_DIR", "bench")] "BENCH_DIR" = some "bench" ∧
      expand (get? [("BENCH_DIR", "bench")])
          (openComment ++ writeReference "BENCH_DIR".toList ++ ['"', '\n']) =
        openComment ++ writeReference "BENCH_DIR".toList ++ ['"', '\n'] ∧
      expand (get? [("BENCH_DIR", "bench")])
          (openComment ++ writeReference "BENCH_DIR".toList ++ ['"', '\n']) ≠
        expand (get? [("BENCH_DIR", "bench")]) openComment ++ "bench".toList ++
          expand (get? [("BENCH_DIR", "bench")]) ['"', '\n'] := by
  refine ⟨get?_singleton _ _, ?_, ?_⟩
  · decide +kernel
  · decide +kernel

end ThroughputPlot.Environment
