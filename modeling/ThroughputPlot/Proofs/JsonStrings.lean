import ThroughputPlot.Json.Reader
import ThroughputPlot.Json.Writer
import Mathlib.Tactic

/-!
# Strings of JSON

Between double quotes a character stands for itself or has an escape, of which there may be
several: a letter, its code point, or the two halves of a surrogate pair.  Whatever spelling is
taken for each character, the string is read back.  The writer takes one of the spellings for each
character.
-/

namespace ThroughputPlot.Json

open Text (hexNumber? charOfCode?)

/-- The letters that a backslash may stand before, each with the character it stands for. -/
def escapeLetters : List (Char × Char) :=
  [('"', '"'), ('\\', '\\'), ('/', '/'), ('b', '\x08'), ('f', '\x0c'), ('n', '\n'), ('r', '\r'),
    ('t', '\t')]

/-- A spelling of a character between double quotes. -/
inductive WrittenChar (c : Char) : List Char → Prop
  | plain (hquote : c ≠ '"') (hslash : c ≠ '\\') (hcontrol : 32 ≤ c.toNat) : WrittenChar c [c]
  | short {letter : Char} (h : (letter, c) ∈ escapeLetters) : WrittenChar c ['\\', letter]
  | code {a₁ a₂ a₃ a₄ : Char} (h : hexNumber? [a₁, a₂, a₃, a₄] = some c.toNat) :
      WrittenChar c ['\\', 'u', a₁, a₂, a₃, a₄]
  | pair {a₁ a₂ a₃ a₄ b₁ b₂ b₃ b₄ : Char} {high low : ℕ}
      (hhigh : hexNumber? [a₁, a₂, a₃, a₄] = some (0xD800 + high))
      (hlow : hexNumber? [b₁, b₂, b₃, b₄] = some (0xDC00 + low))
      (hhigh_lt : high < 0x400) (hlow_lt : low < 0x400)
      (hcode : c.toNat = 0x10000 + high * 0x400 + low) :
      WrittenChar c ['\\', 'u', a₁, a₂, a₃, a₄, '\\', 'u', b₁, b₂, b₃, b₄]

/-- A spelling of a text between double quotes, character by character. -/
inductive WrittenText : List Char → List Char → Prop
  | nil : WrittenText [] []
  | cons {c : Char} {text spelling written : List Char} (hchar : WrittenChar c spelling)
      (htext : WrittenText text written) : WrittenText (c :: text) (spelling ++ written)

def WrittenString (s : String) (text : List Char) : Prop :=
  ∃ written, WrittenText s.toList written ∧ text = '"' :: (written ++ ['"'])

/-! ## Units -/

theorem charOfCode?_toNat (c : Char) : charOfCode? c.toNat = some c := by
  have hvalid : c.toNat.isValidChar := c.valid
  rw [charOfCode?, dif_pos hvalid]
  rfl

theorem isHighSurrogate_toNat (c : Char) : isHighSurrogate c.toNat = false := by
  have hvalid : c.toNat.isValidChar := c.valid
  unfold Nat.isValidChar at hvalid
  unfold isHighSurrogate
  rw [Bool.and_eq_false_iff, decide_eq_false_iff_not, decide_eq_false_iff_not]
  omega

theorem textOfUnits_cons (c : Char) (units : List ℕ) :
    textOfUnits (c.toNat :: units) = (textOfUnits units).map (c :: ·) := by
  cases units with
  | nil => simp [textOfUnits, charOfCode?_toNat]
  | cons unit units =>
      simp only [textOfUnits, isHighSurrogate_toNat, charOfCode?_toNat, Bool.false_and,
        Bool.false_eq_true, if_false]
      cases textOfUnits (unit :: units) <;> rfl

theorem textOfUnits_pair {c : Char} {high low : ℕ} (hhigh : high < 0x400) (hlow : low < 0x400)
    (hcode : c.toNat = 0x10000 + high * 0x400 + low) (units : List ℕ) :
    textOfUnits ((0xD800 + high) :: (0xDC00 + low) :: units) =
      (textOfUnits units).map (c :: ·) := by
  have hfirst : isHighSurrogate (0xD800 + high) = true := by
    rw [isHighSurrogate, Bool.and_eq_true, decide_eq_true_eq, decide_eq_true_eq]
    omega
  have hsecond : isLowSurrogate (0xDC00 + low) = true := by
    rw [isLowSurrogate, Bool.and_eq_true, decide_eq_true_eq, decide_eq_true_eq]
    omega
  rw [textOfUnits, hfirst, hsecond, Nat.add_sub_cancel_left, Nat.add_sub_cancel_left, ← hcode,
    charOfCode?_toNat]
  cases textOfUnits units <;> rfl

/-! ## Reading back -/

section

variable {rest left : List Char} {more : List ℕ} (hrest : readUnits rest = some (more, left))

include hrest

theorem readUnits_plain {c : Char} (hquote : c ≠ '"') (hslash : c ≠ '\\')
    (hcontrol : 32 ≤ c.toNat) : readUnits (c :: rest) = some (c.toNat :: more, left) := by
  rw [readUnits, if_neg (Nat.not_lt.mpr hcontrol), hrest]
  · rfl
  · exact hquote
  · simp [hslash]
  · simp [hslash]

theorem readUnits_short {letter c : Char} (h : (letter, c) ∈ escapeLetters) :
    readUnits ('\\' :: letter :: rest) = some (c.toNat :: more, left) := by
  have hstep : consUnit (some c.toNat) (readUnits rest) = some (c.toNat :: more, left) := by
    rw [hrest]
    rfl
  rw [← hstep]
  simp only [escapeLetters, List.mem_cons, Prod.mk.injEq, List.not_mem_nil, or_false] at h
  rcases h with ⟨rfl, rfl⟩ | ⟨rfl, rfl⟩ | ⟨rfl, rfl⟩ | ⟨rfl, rfl⟩ | ⟨rfl, rfl⟩ | ⟨rfl, rfl⟩ |
    ⟨rfl, rfl⟩ | ⟨rfl, rfl⟩
  all_goals rfl

theorem readUnits_code {a₁ a₂ a₃ a₄ : Char} {unit : ℕ}
    (h : hexNumber? [a₁, a₂, a₃, a₄] = some unit) :
    readUnits ('\\' :: 'u' :: a₁ :: a₂ :: a₃ :: a₄ :: rest) = some (unit :: more, left) := by
  change consUnit (hexNumber? [a₁, a₂, a₃, a₄]) (readUnits rest) = _
  rw [h, hrest]
  rfl

end

/-- A character is read as units that stand for it wherever they occur. -/
theorem WrittenChar.exists_units {c : Char} {spelling : List Char} (h : WrittenChar c spelling) :
    ∃ units, (∀ {rest more left}, readUnits rest = some (more, left) →
        readUnits (spelling ++ rest) = some (units ++ more, left)) ∧
      ∀ more, textOfUnits (units ++ more) = (textOfUnits more).map (c :: ·) := by
  cases h with
  | plain hquote hslash hcontrol =>
      exact ⟨[c.toNat], fun hrest => readUnits_plain hrest hquote hslash hcontrol,
        textOfUnits_cons c⟩
  | short h => exact ⟨[c.toNat], fun hrest => readUnits_short hrest h, textOfUnits_cons c⟩
  | code h => exact ⟨[c.toNat], fun hrest => readUnits_code hrest h, textOfUnits_cons c⟩
  | @pair _ _ _ _ _ _ _ _ high low hhigh hlow hhigh_lt hlow_lt hcode =>
      exact ⟨[0xD800 + high, 0xDC00 + low],
        fun hrest => readUnits_code (readUnits_code hrest hlow) hhigh,
        textOfUnits_pair hhigh_lt hlow_lt hcode⟩

theorem WrittenText.exists_units {text written : List Char} (h : WrittenText text written)
    (rest : List Char) :
    ∃ units, readUnits (written ++ '"' :: rest) = some (units, rest) ∧
      textOfUnits units = some text := by
  induction h with
  | nil => exact ⟨[], rfl, rfl⟩
  | cons hchar _ ih =>
      obtain ⟨more, hread, hmore⟩ := ih
      obtain ⟨units, hunits, htext⟩ := hchar.exists_units
      refine ⟨units ++ more, ?_, ?_⟩
      · rw [List.append_assoc]
        exact hunits hread
      · rw [htext, hmore]
        rfl

theorem WrittenText.readString_eq {s : String} {written : List Char}
    (h : WrittenText s.toList written) (rest : List Char) :
    readString (written ++ '"' :: rest) = some (some s, rest) := by
  obtain ⟨units, hread, htext⟩ := h.exists_units rest
  rw [readString, hread, Option.map_some]
  dsimp only
  rw [htext, Option.map_some, String.ofList_toList]

/-! ## The writer -/

theorem hexNumber?_hexChar :
    ∀ n < 32, hexNumber? ['0', '0', hexChar (n / 16), hexChar (n % 16)] = some n := by
  decide

theorem writtenChar_escapeChar (c : Char) : WrittenChar c (escapeChar c) := by
  unfold escapeChar
  split_ifs with hquote hslash hback hfeed hline hreturn htab hcontrol
  · exact .short (by simp [escapeLetters, hquote])
  · exact .short (by simp [escapeLetters, hslash])
  · exact .short (by simp [escapeLetters, hback])
  · exact .short (by simp [escapeLetters, hfeed])
  · exact .short (by simp [escapeLetters, hline])
  · exact .short (by simp [escapeLetters, hreturn])
  · exact .short (by simp [escapeLetters, htab])
  · exact .code (hexNumber?_hexChar c.toNat hcontrol)
  · exact .plain hquote hslash (Nat.not_lt.mp hcontrol)

theorem writtenText_flatMap (text : List Char) : WrittenText text (text.flatMap escapeChar) := by
  induction text with
  | nil => exact .nil
  | cons c text ih => exact .cons (writtenChar_escapeChar c) ih

theorem writtenString_writeString (s : String) : WrittenString s (writeString (some s)) :=
  ⟨_, writtenText_flatMap s.toList, rfl⟩

end ThroughputPlot.Json
