import ThroughputPlot.Binary64.Literal
import Mathlib.Tactic

/-!
# The parts of a literal
-/

namespace ThroughputPlot.Binary64

/-- The digits behind a point, if there is one, and what follows them. -/
def takeFraction (text : List Char) : List Char × List Char :=
  match text with
  | '.' :: more => takeDigits more
  | _ => ([], text)

/-- A literal that is none of the words has digits, a fraction and an exponent. -/
theorem unsigned?_of_not_word {text : List Char} (negative : Bool)
    (hinf : text.map Char.toLower ≠ "inf".toList)
    (hinfinity : text.map Char.toLower ≠ "infinity".toList)
    (hnan : text.map Char.toLower ≠ "nan".toList) {whole behind part last : List Char}
    (htaken : takeDigits text = (whole, behind)) (hfraction : takeFraction behind = (part, last)) :
    unsigned? negative text =
      if whole.isEmpty && part.isEmpty then none
      else (exponent? last).map fun exponent =>
        ofNumeral negative (natOfDigits (whole ++ part)) (whole ++ part).length
          (exponent - part.length) := by
  have hwords : ¬ (decide (text.map Char.toLower = "inf".toList) ||
      decide (text.map Char.toLower = "infinity".toList)) = true := by
    rw [Bool.or_eq_true, decide_eq_true_eq, decide_eq_true_eq, not_or]
    exact ⟨hinf, hinfinity⟩
  unfold unsigned?
  dsimp only
  rw [if_neg hwords, if_neg hnan, htaken]
  change (if whole.isEmpty && (takeFraction behind).1.isEmpty then none
    else (exponent? (takeFraction behind).2).map fun exponent =>
      ofNumeral negative (natOfDigits (whole ++ (takeFraction behind).1))
        (whole ++ (takeFraction behind).1).length
        (exponent - (takeFraction behind).1.length)) = _
  rw [hfraction]

/-! ## Characters of a literal -/

variable {text : List Char}

theorem mem_of_takeSign {negative : Bool} {rest : List Char}
    (hsign : takeSign text = (negative, rest)) (htext : '\uFFFD' ∈ text) : '\uFFFD' ∈ rest := by
  unfold takeSign at hsign
  split at hsign <;> simp_all

theorem mem_of_takeDigits {digits rest : List Char} (htaken : takeDigits text = (digits, rest))
    (htext : '\uFFFD' ∈ text) : '\uFFFD' ∈ rest := by
  obtain ⟨rfl, rfl⟩ := Prod.mk.inj htaken
  rw [← List.takeWhile_append_dropWhile (p := Char.isDigit) (l := text), List.mem_append] at htext
  rcases htext with hdigit | hrest
  · have hclass := List.all_eq_true.mp List.all_takeWhile _ hdigit
    contradiction
  · exact hrest

theorem mem_of_takeFraction {part last : List Char} (hfraction : takeFraction text = (part, last))
    (htext : '\uFFFD' ∈ text) : '\uFFFD' ∈ last := by
  unfold takeFraction at hfraction
  split at hfraction
  next more => exact mem_of_takeDigits hfraction (List.mem_of_ne_of_mem (by decide) htext)
  next => rwa [← (Prod.mk.inj hfraction).2]

theorem exponent?_eq_none_of_mem (htext : '\uFFFD' ∈ text) : exponent? text = none := by
  cases text with
  | nil => contradiction
  | cons c rest =>
      rw [exponent?]
      split
      next he =>
        have hne : '\uFFFD' ≠ c := by
          rintro rfl
          contradiction
        have hrest : '\uFFFD' ∈ rest := List.mem_of_ne_of_mem hne htext
        cases hsign : takeSign rest with
        | mk negative digits =>
            have hdigits : digits.all Char.isDigit = false :=
              List.all_eq_false.mpr ⟨_, mem_of_takeSign hsign hrest, by decide⟩
            simp [hdigits]
      next => rfl

/-- No literal holds the replacement character. -/
theorem ofLiteral?_eq_none_of_mem (htext : '\uFFFD' ∈ text) : ofLiteral? text = none := by
  unfold ofLiteral?
  cases hsign : takeSign text with
  | mk negative rest =>
      have hrest := mem_of_takeSign hsign htext
      have hlower : '\uFFFD' ∈ rest.map Char.toLower := List.mem_map.mpr ⟨_, hrest, rfl⟩
      have hword : ∀ word : List Char, '\uFFFD' ∉ word → rest.map Char.toLower ≠ word := by
        rintro word hword rfl
        exact hword hlower
      cases htaken : takeDigits rest with
      | mk whole behind =>
          cases hfraction : takeFraction behind with
          | mk part last =>
              have hlast := mem_of_takeFraction hfraction (mem_of_takeDigits htaken hrest)
              dsimp only
              rw [unsigned?_of_not_word negative (hword _ (by decide)) (hword _ (by decide))
                (hword _ (by decide)) htaken hfraction, exponent?_eq_none_of_mem hlast,
                Option.map_none, ite_self]

end ThroughputPlot.Binary64
