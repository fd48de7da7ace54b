import ThroughputPlot.Text.Cut

/-!
# Blanks, lines and words

A blank is a character of the Unicode property `White_Space`.  A line ends at a line
feed; a carriage return is a blank, so it needs no rule of its own.  The words of a
line are its longest runs of characters that are not blank.
-/

namespace ThroughputPlot.Text

/-- Whether a character has the Unicode property `White_Space`. -/
def isBlank (c : Char) : Bool :=
  let n := c.toNat
  (9 ≤ n && n ≤ 13) || n = 0x20 || n = 0x85 || n = 0xA0 || n = 0x1680 ||
    (0x2000 ≤ n && n ≤ 0x200A) || n = 0x2028 || n = 0x2029 || n = 0x202F ||
    n = 0x205F || n = 0x3000

/-- A text without the blanks at its ends. -/
def trimBlanks (text : List Char) : List Char :=
  ((text.dropWhile isBlank).reverse.dropWhile isBlank).reverse

/-- Whether a text holds blanks only. -/
def isBlankText (text : String) : Bool := text.toList.all isBlank

/-- The lines of a text; the text after the last line feed is a line too. -/
def lines (text : List Char) : List (List Char) := cutAt '\n' text

/-- A word put before others, unless it is empty. -/
def consWord (word : List Char) (words : List (List Char)) : List (List Char) :=
  if word.isEmpty then words else word :: words

/-- One character put before a line that is already cut into an open word and the others. -/
def wordStep (c : Char) (cut : List Char × List (List Char)) : List Char × List (List Char) :=
  if isBlank c then ([], consWord cut.1 cut.2) else (c :: cut.1, cut.2)

def words (line : List Char) : List (List Char) :=
  let cut := line.foldr wordStep ([], [])
  consWord cut.1 cut.2

@[simp] theorem words_nil : words [] = [] := rfl

/-- Blanks before a line add no word to it. -/
theorem words_append_of_blank {gap : List Char} (hgap : ∀ c ∈ gap, isBlank c = true)
    (line : List Char) : words (gap ++ line) = words line := by
  induction gap with
  | nil => rfl
  | cons c gap ih =>
    have hc : isBlank c = true := hgap c (List.mem_cons_self ..)
    have hrest : ∀ d ∈ gap, isBlank d = true := fun d hd => hgap d (List.mem_cons_of_mem _ hd)
    rw [← ih hrest]
    simp [words, wordStep, hc, consWord]

theorem words_of_blank {gap : List Char} (hgap : ∀ c ∈ gap, isBlank c = true) :
    words gap = [] := by
  simpa using words_append_of_blank hgap []

/-- Characters that are not blank are put before the open word. -/
theorem foldr_wordStep {word : List Char} (hword : ∀ c ∈ word, isBlank c = false)
    (cut : List Char × List (List Char)) :
    word.foldr wordStep cut = (word ++ cut.1, cut.2) := by
  induction word with
  | nil => rfl
  | cons c word ih =>
    have hc : isBlank c = false := hword c (List.mem_cons_self ..)
    have hrest : ∀ d ∈ word, isBlank d = false := fun d hd => hword d (List.mem_cons_of_mem _ hd)
    rw [List.foldr_cons, ih hrest]
    simp [wordStep, hc]

/-- A word ends where a blank follows it, or the end of the line. -/
theorem words_append_of_not_blank {word rest : List Char} (hne : word ≠ [])
    (hword : ∀ c ∈ word, isBlank c = false) (hrest : ∀ c ∈ rest.head?, isBlank c = true) :
    words (word ++ rest) = word :: words rest := by
  cases rest with
  | nil => simp [words, foldr_wordStep hword, consWord, hne]
  | cons c rest =>
    have hc : isBlank c = true := hrest c rfl
    simp [words, foldr_wordStep hword, wordStep, hc, consWord, hne]

end ThroughputPlot.Text
