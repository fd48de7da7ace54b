import ThroughputPlot.Proofs.PlainStrings
import Mathlib.Tactic

/-!
# Written strings

A basic string writes a plain character as it is and any character with an escape, of which one
character may have several.  Whatever spelling is taken for each character, the string is read back.
-/

namespace ThroughputPlot.Toml

open Text (hexNumber? charOfCode?)

/-- The letters that a backslash may stand before, each with the character it stands for. -/
def escapeLetters : List (Char × Char) :=
  [('"', '"'), ('\\', '\\'), ('b', '\x08'), ('e', '\x1b'), ('f', '\x0c'), ('n', '\n'), ('r', '\r'),
    ('t', '\t')]

/-- A spelling of a character between double quotes. -/
inductive WrittenChar (c : Char) : List Char → Prop
  | plain (h : IsPlain c) : WrittenChar c [c]
  | short {letter : Char} (h : (letter, c) ∈ escapeLetters) : WrittenChar c ['\\', letter]
  | code2 {a₁ a₂ : Char} (h : hexNumber? [a₁, a₂] = some c.toNat) :
      WrittenChar c ['\\', 'x', a₁, a₂]
  | code4 {a₁ a₂ a₃ a₄ : Char} (h : hexNumber? [a₁, a₂, a₃, a₄] = some c.toNat) :
      WrittenChar c ['\\', 'u', a₁, a₂, a₃, a₄]
  | code8 {a₁ a₂ a₃ a₄ a₅ a₆ a₇ a₈ : Char}
      (h : hexNumber? [a₁, a₂, a₃, a₄, a₅, a₆, a₇, a₈] = some c.toNat) :
      WrittenChar c ['\\', 'U', a₁, a₂, a₃, a₄, a₅, a₆, a₇, a₈]

/-- A spelling of a text between double quotes, character by character. -/
inductive WrittenText : List Char → List Char → Prop
  | nil : WrittenText [] []
  | cons {c : Char} {text spelling written : List Char} (hchar : WrittenChar c spelling)
      (htext : WrittenText text written) : WrittenText (c :: text) (spelling ++ written)

theorem shortEscape?_of_mem :
    ∀ escape ∈ escapeLetters, shortEscape? escape.1 = some escape.2 := by
  decide

theorem escapedCode?_of_hexNumber? {digits : List Char} {c : Char}
    (h : hexNumber? digits = some c.toNat) : escapedCode? digits = some c := by
  have hvalid : c.toNat.isValidChar := c.valid
  rw [escapedCode?, h, Option.bind_some, charOfCode?, dif_pos hvalid]
  rfl

theorem WrittenChar.readBasic_eq {c : Char} {spelling : List Char} (h : WrittenChar c spelling)
    (rest : List Char) : readBasic (spelling ++ rest) = consChar (some c) (readBasic rest) := by
  cases h with
  | plain h =>
      obtain ⟨hquote, hslash, hallowed⟩ := h
      exact readBasic_cons hquote hslash hallowed rest
  | short h =>
      have hescape := shortEscape?_of_mem _ h
      rw [← hescape]
      exact readBasic_escape hescape rest
  | code2 h =>
      rw [← escapedCode?_of_hexNumber? h]
      rfl
  | code4 h =>
      rw [← escapedCode?_of_hexNumber? h]
      rfl
  | code8 h =>
      rw [← escapedCode?_of_hexNumber? h]
      rfl

theorem WrittenText.readBasic_eq {text written : List Char} (h : WrittenText text written)
    (rest : List Char) : readBasic (written ++ '"' :: rest) = some (text, rest) := by
  induction h with
  | nil => rfl
  | cons hchar _ ih =>
      rw [List.append_assoc, hchar.readBasic_eq, ih]
      rfl

theorem WrittenChar.exists_cons {c : Char} {spelling : List Char} (h : WrittenChar c spelling) :
    ∃ first more, spelling = first :: more ∧ first ≠ '"' := by
  cases h with
  | plain h => exact ⟨_, _, rfl, h.1⟩
  | short | code2 | code4 | code8 => exact ⟨_, _, rfl, by decide⟩

theorem WrittenText.readQuoted_eq {text written : List Char} (h : WrittenText text written)
    {rest : List Char} (hrest : rest.head? ≠ some '"') :
    readQuoted ('"' :: (written ++ '"' :: rest)) = some (text, rest) := by
  cases h with
  | nil => exact readQuoted_of_plain (by simp) hrest
  | cons hchar htext =>
      rw [← (WrittenText.cons hchar htext).readBasic_eq rest]
      obtain ⟨first, more, rfl, hfirst⟩ := hchar.exists_cons
      exact readQuoted_of_head?_ne (by simpa using hfirst)

/-! ## Every text has a spelling -/

theorem toNat_lt_of_not_isPlain {c : Char} (h : ¬ IsPlain c) : c.toNat < 128 := by
  by_contra hle
  refine h ⟨?_, ?_, ?_⟩
  · rintro rfl
    exact hle (by decide)
  · rintro rfl
    exact hle (by decide)
  · rw [isAllowed, Bool.or_eq_true, Bool.and_eq_true]
    exact .inr ⟨decide_eq_true (by omega), decide_eq_true (by omega)⟩

theorem hexNumber?_digitChar :
    ∀ n < 128, hexNumber? ['0', '0', (n / 16).digitChar, (n % 16).digitChar] = some n := by
  decide

theorem exists_writtenText (text : List Char) : ∃ written, WrittenText text written := by
  induction text with
  | nil => exact ⟨[], .nil⟩
  | cons c text ih =>
      obtain ⟨written, htext⟩ := ih
      by_cases hplain : IsPlain c
      · exact ⟨_, .cons (.plain hplain) htext⟩
      · have hcode := hexNumber?_digitChar c.toNat (toNat_lt_of_not_isPlain hplain)
        exact ⟨_, .cons (.code4 hcode) htext⟩

end ThroughputPlot.Toml
