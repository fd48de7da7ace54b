import ThroughputPlot.Proofs.References

/-!
# The scan for references

The references of a text are those that a scan from left to right finds: each time the earliest
place at which one begins, and then what follows its closing brace.  The scan looks at the text
only, so that what is found depends on no value and no value is searched.  Expanding puts the values
into the places found and copies what stands between them.
-/

namespace ThroughputPlot.Environment

/-! ## The earliest reference -/

/-- An opening, a name that is not empty and the closing brace stand in front. -/
def BeginsReference (text : List Char) : Prop :=
  ∃ name after, name ≠ [] ∧ '}' ∉ name ∧ text = writeReference name ++ after

/-- The first place at which a reference begins, after the gap. -/
structure FirstReference (text gap name after : List Char) : Prop where
  name_ne_nil : name ≠ []
  name_closed : '}' ∉ name
  text_eq : text = gap ++ (writeReference name ++ after)
  earliest : ∀ n < gap.length, ¬ BeginsReference (text.drop n)

theorem reference?_eq_none {text : List Char} (hnot : ¬ BeginsReference text) :
    reference? text = none := by
  cases href : reference? text with
  | none => rfl
  | some found =>
      obtain ⟨name, after⟩ := found
      obtain ⟨hne, hname, htext⟩ := eq_of_reference? href
      exact absurd ⟨name, after, hne, hname, htext⟩ hnot

theorem not_beginsReference {text : List Char} (href : reference? text = none) :
    ¬ BeginsReference text := by
  rintro ⟨name, after, hne, hname, rfl⟩
  rw [reference?_writeReference_append hne hname] at href
  contradiction

theorem not_beginsReference_of_not_mem {text : List Char} (htext : '}' ∉ text) (n : ℕ) :
    ¬ BeginsReference (text.drop n) :=
  not_beginsReference
    (reference?_eq_none_of_not_mem fun hmem => htext (List.mem_of_mem_drop hmem))

theorem exists_firstReference {text : List Char} (hsome : ∃ n, BeginsReference (text.drop n)) :
    ∃ gap name after, FirstReference text gap name after := by
  classical
  obtain ⟨name, after, hne, hname, hdrop⟩ := Nat.find_spec hsome
  refine ⟨text.take (Nat.find hsome), name, after, hne, hname, ?_, ?_⟩
  · rw [← hdrop, List.take_append_drop]
  · intro n hn
    exact Nat.find_min hsome (hn.trans_le (List.length_take_le _ _))

namespace FirstReference

variable {text gap name after : List Char}

theorem beginsReference (hfirst : FirstReference text gap name after) :
    BeginsReference (text.drop gap.length) := by
  refine ⟨name, after, hfirst.name_ne_nil, hfirst.name_closed, ?_⟩
  rw [hfirst.text_eq, List.drop_left]

theorem length_le {gap' name' after' : List Char} (hfirst : FirstReference text gap name after)
    (hother : FirstReference text gap' name' after') : gap'.length ≤ gap.length := by
  by_contra hlonger
  exact hother.earliest gap.length (Nat.not_le.mp hlonger) hfirst.beginsReference

theorem unique {gap' name' after' : List Char} (hfirst : FirstReference text gap name after)
    (hother : FirstReference text gap' name' after') :
    gap' = gap ∧ name' = name ∧ after' = after := by
  have hlength : gap'.length = gap.length :=
    Nat.le_antisymm (hfirst.length_le hother) (hother.length_le hfirst)
  have htext := hother.text_eq.symm.trans hfirst.text_eq
  obtain ⟨hgap, hrest⟩ := List.append_inj htext hlength
  have href := reference?_writeReference_append hfirst.name_ne_nil hfirst.name_closed after
  have href' := reference?_writeReference_append hother.name_ne_nil hother.name_closed after'
  rw [hrest] at href'
  obtain ⟨hname, hafter⟩ := Prod.mk.inj (Option.some.inj (href'.symm.trans href))
  exact ⟨hgap, hname, hafter⟩

theorem length_lt (hfirst : FirstReference text gap name after) : after.length < text.length := by
  rw [hfirst.text_eq, writeReference_append]
  simp only [List.length_append, List.length_cons]
  omega

/-- The first character of the gap begins no reference, and the others are a gap again. -/
theorem tail {c : Char} (hfirst : FirstReference text (c :: gap) name after) :
    ∃ rest, text = c :: rest ∧ reference? (c :: rest) = none ∧
      FirstReference rest gap name after := by
  obtain ⟨hne, hname, rfl, hearliest⟩ := hfirst
  refine ⟨gap ++ (writeReference name ++ after), rfl, ?_, hne, hname, rfl, ?_⟩
  · exact reference?_eq_none (hearliest 0 (Nat.succ_pos _))
  · intro n hn
    exact hearliest (n + 1) (Nat.succ_lt_succ hn)

theorem expand_eq (value : String → Option String)
    (hfirst : FirstReference text gap name after) :
    expand value text = gap ++ (replacement value name ++ expand value after) := by
  induction gap generalizing text with
  | nil =>
      rw [hfirst.text_eq, List.nil_append,
        expand_writeReference_append hfirst.name_ne_nil hfirst.name_closed, List.nil_append]
  | cons c gap ih =>
      obtain ⟨rest, rfl, hnone, hrest⟩ := hfirst.tail
      rw [expand_cons_of_none hnone, ih hrest, List.cons_append]

end FirstReference

theorem references_of_reference? {text name after : List Char}
    (href : reference? text = some (name, after)) :
    references text = String.ofList name :: references after := by
  rw [references]
  split
  next name' after' href' =>
    obtain ⟨rfl, rfl⟩ := Prod.mk.inj (Option.some.inj (href'.symm.trans href))
    rfl
  next href' =>
    rw [href'] at href
    contradiction

theorem references_cons_of_none {c : Char} {rest : List Char}
    (href : reference? (c :: rest) = none) : references (c :: rest) = references rest := by
  rw [references]
  split
  next name' after' href' =>
    rw [href'] at href
    contradiction
  next href' => rfl

theorem FirstReference.references_eq {text gap name after : List Char}
    (hfirst : FirstReference text gap name after) :
    references text = String.ofList name :: references after := by
  induction gap generalizing text with
  | nil =>
      rw [hfirst.text_eq, List.nil_append]
      exact references_of_reference?
        (reference?_writeReference_append hfirst.name_ne_nil hfirst.name_closed after)
  | cons c gap ih =>
      obtain ⟨rest, rfl, hnone, hrest⟩ := hfirst.tail
      rw [references_cons_of_none hnone, ih hrest]

theorem references_eq_nil {text : List Char} (hnone : ∀ n, ¬ BeginsReference (text.drop n)) :
    references text = [] := by
  induction text with
  | nil =>
      rw [references]
      rfl
  | cons c rest ih =>
      rw [references_cons_of_none (reference?_eq_none (hnone 0)), ih fun n => hnone (n + 1)]

theorem references_of_not_mem {text : List Char} (htext : '}' ∉ text) : references text = [] :=
  references_eq_nil (not_beginsReference_of_not_mem htext)

theorem expand_eq_self (value : String → Option String) {text : List Char}
    (hnone : ∀ n, ¬ BeginsReference (text.drop n)) : expand value text = text := by
  induction text with
  | nil => exact expand_nil
  | cons c rest ih =>
      rw [expand_cons_of_none (reference?_eq_none (hnone 0)), ih fun n => hnone (n + 1)]

/-! ## The scan -/

/-- The gaps and the names that the scan meets, and the text behind the last reference. -/
inductive Scan : List Char → List (List Char × List Char) → List Char → Prop where
  | done {text : List Char} (hnone : ∀ n, ¬ BeginsReference (text.drop n)) : Scan text [] text
  | reference {text gap name after rest : List Char} {pieces : List (List Char × List Char)}
      (hfirst : FirstReference text gap name after) (hafter : Scan after pieces rest) :
      Scan text ((gap, name) :: pieces) rest

theorem exists_scan (text : List Char) : ∃ pieces rest, Scan text pieces rest := by
  induction hlength : text.length using Nat.strong_induction_on generalizing text with
  | _ length ih =>
      by_cases hsome : ∃ n, BeginsReference (text.drop n)
      · obtain ⟨gap, name, after, hfirst⟩ := exists_firstReference hsome
        obtain ⟨pieces, rest, hafter⟩ := ih _ (hlength ▸ hfirst.length_lt) after rfl
        exact ⟨(gap, name) :: pieces, rest, .reference hfirst hafter⟩
      · exact ⟨[], text, .done (not_exists.mp hsome)⟩

namespace Scan

variable {text rest : List Char} {pieces : List (List Char × List Char)}
  {value value' : String → Option String}

theorem unique {pieces' : List (List Char × List Char)} {rest' : List Char}
    (hscan : Scan text pieces rest) (hother : Scan text pieces' rest') :
    pieces' = pieces ∧ rest' = rest := by
  induction hscan generalizing pieces' rest' with
  | done hnone =>
      cases hother with
      | done _ => exact ⟨rfl, rfl⟩
      | reference hfirst _ => exact absurd hfirst.beginsReference (hnone _)
  | reference hfirst _ ih =>
      cases hother with
      | done hnone => exact absurd hfirst.beginsReference (hnone _)
      | reference hfirst' hafter =>
          obtain ⟨rfl, rfl, rfl⟩ := hfirst.unique hfirst'
          obtain ⟨rfl, rfl⟩ := ih hafter
          exact ⟨rfl, rfl⟩

theorem references_eq (hscan : Scan text pieces rest) :
    references text = pieces.map fun piece => String.ofList piece.2 := by
  induction hscan with
  | done hnone => exact references_eq_nil hnone
  | reference hfirst _ ih => rw [hfirst.references_eq, ih, List.map_cons]

theorem text_eq (hscan : Scan text pieces rest) :
    text = (pieces.flatMap fun piece => piece.1 ++ writeReference piece.2) ++ rest := by
  induction hscan with
  | done _ => rfl
  | reference hfirst _ ih =>
      rw [hfirst.text_eq, List.flatMap_cons, List.append_assoc, List.append_assoc, ← ih]

/-- The gaps are copied, and the names are replaced. -/
theorem expand_eq (value : String → Option String) (hscan : Scan text pieces rest) :
    expand value text =
      (pieces.flatMap fun piece => piece.1 ++ replacement value piece.2) ++ rest := by
  induction hscan with
  | done hnone => exact expand_eq_self value hnone
  | reference hfirst _ ih =>
      rw [hfirst.expand_eq, List.flatMap_cons, List.append_assoc, List.append_assoc, ← ih]

theorem expand_of_unset (hscan : Scan text pieces rest)
    (hunset : ∀ piece ∈ pieces, value (String.ofList piece.2) = none) :
    expand value text = text := by
  have hcopied : (pieces.flatMap fun piece => piece.1 ++ replacement value piece.2) =
      pieces.flatMap fun piece => piece.1 ++ writeReference piece.2 := by
    apply List.flatMap_congr
    intro piece hpiece
    rw [replacement, hunset piece hpiece]
  rw [hscan.expand_eq, hcopied, ← hscan.text_eq]

end Scan

/-- Only the variables that are referenced matter. -/
theorem expand_congr {text : List Char} {value value' : String → Option String}
    (hsame : ∀ name ∈ references text, value' name = value name) :
    expand value' text = expand value text := by
  obtain ⟨pieces, rest, hscan⟩ := exists_scan text
  rw [hscan.references_eq, List.forall_mem_map] at hsame
  have hreplaced : (pieces.flatMap fun piece => piece.1 ++ replacement value' piece.2) =
      pieces.flatMap fun piece => piece.1 ++ replacement value piece.2 := by
    apply List.flatMap_congr
    intro piece hpiece
    rw [replacement, replacement, hsame piece hpiece]
  rw [hscan.expand_eq, hscan.expand_eq, hreplaced]

/-- References stay as they are if no variable is set for them. -/
theorem expand_of_unset {text : List Char} {value : String → Option String}
    (hunset : ∀ name ∈ references text, value name = none) : expand value text = text := by
  obtain ⟨pieces, rest, hscan⟩ := exists_scan text
  rw [hscan.references_eq, List.forall_mem_map] at hunset
  exact hscan.expand_of_unset hunset

/-- Expanding is a single pass: a text has one scan, whatever the variables are, and their values
are only put into the places that the scan finds.  A variable that is not set to a text has no
value.  Where none of the names has one, and where there is no reference at all, the text stays as
it is. -/
theorem expand_single_pass (text : List Char) :
    ∃ pieces rest, Scan text pieces rest ∧
      (∀ pieces' rest', Scan text pieces' rest' → pieces' = pieces ∧ rest' = rest) ∧
      ∀ value : String → Option String,
        expand value text =
          (pieces.flatMap fun piece => piece.1 ++ replacement value piece.2) ++ rest ∧
        ((∀ piece ∈ pieces, value (String.ofList piece.2) = none) → expand value text = text) ∧
        ((∀ n, ¬ BeginsReference (text.drop n)) → expand value text = text) := by
  obtain ⟨pieces, rest, hscan⟩ := exists_scan text
  refine ⟨pieces, rest, hscan, fun _ _ => hscan.unique, ?_⟩
  intro value
  exact ⟨hscan.expand_eq value, hscan.expand_of_unset, expand_eq_self value⟩

/-- A name that is empty, and an opening that nothing closes. -/
def looseEnds : List Char := "$\x7bA\x7d$\x7b\x7d$\x7bB\x7d $\x7bC".toList

theorem scan_looseEnds :
    Scan looseEnds [([], ['A']), ("$\x7b\x7d".toList, ['B'])] " $\x7bC".toList := by
  refine .reference ⟨by decide, by decide, rfl, ?_⟩ (.reference ⟨by decide, by decide, rfl, ?_⟩
    (.done ?_))
  · intro n hn
    exact absurd hn (Nat.not_lt_zero n)
  · intro n hn
    apply not_beginsReference
    revert n
    decide
  · exact not_beginsReference_of_not_mem (by decide)

theorem expand_single_pass_looseEnds :
    Scan looseEnds [([], ['A']), ("$\x7b\x7d".toList, ['B'])] " $\x7bC".toList ∧
      (∀ piece ∈ [([], ['A']), ("$\x7b\x7d".toList, ['B'])],
        get? [("C", "x")] (String.ofList piece.2) = none) ∧
      expand (get? [("C", "x")]) looseEnds = looseEnds := by
  have hunset : ∀ piece ∈ [([], ['A']), ("$\x7b\x7d".toList, ['B'])],
      get? [("C", "x")] (String.ofList piece.2) = none := by
    decide +kernel
  obtain ⟨pieces, rest, -, hunique, hexpand⟩ := expand_single_pass looseEnds
  obtain ⟨rfl, rfl⟩ := hunique _ _ scan_looseEnds
  exact ⟨scan_looseEnds, hunset, (hexpand _).2.1 hunset⟩

/-- The value of the first name looks like a reference to the second. -/
example : expand (get? [("A", "$\x7bB\x7d"), ("B", "x")]) looseEnds =
    "$\x7bB\x7d$\x7b\x7dx $\x7bC".toList := by
  decide +kernel

end ThroughputPlot.Environment
