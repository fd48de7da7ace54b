/-!
# Replacing a placeholder

Occurrences are found from left to right and do not overlap; the text put in is not
searched again.
-/

namespace ThroughputPlot.Text

/-- Replaces every occurrence in a text of which the first `skip` characters are dropped. -/
def replaceFrom (pattern new : List Char) : Nat → List Char → List Char
  | _, [] => []
  | skip + 1, _ :: rest => replaceFrom pattern new skip rest
  | 0, c :: rest =>
    if pattern.isPrefixOf (c :: rest) then
      new ++ replaceFrom pattern new (pattern.length - 1) rest
    else c :: replaceFrom pattern new 0 rest

/-- Replaces every occurrence of a pattern that is not empty. -/
def replaceAll (pattern new text : List Char) : List Char :=
  replaceFrom pattern new 0 text

variable {pattern : List Char} (new : List Char)

@[simp] theorem replaceAll_nil : replaceAll pattern new [] = [] := rfl

theorem replaceFrom_eq_drop (skip : Nat) (text : List Char) :
    replaceFrom pattern new skip text = replaceAll pattern new (text.drop skip) := by
  induction skip generalizing text with
  | zero => rfl
  | succ skip ih =>
    cases text with
    | nil => rfl
    | cons c rest => exact ih rest

/-- An occurrence in front is replaced, and what follows it is searched. -/
theorem replaceAll_append (hne : pattern ≠ []) (rest : List Char) :
    replaceAll pattern new (pattern ++ rest) = new ++ replaceAll pattern new rest := by
  cases pattern with
  | nil => contradiction
  | cons c body =>
    have hprefix : (c :: body).isPrefixOf (c :: (body ++ rest)) = true :=
      List.isPrefixOf_iff_prefix.mpr ⟨rest, rfl⟩
    have hdrop : (body ++ rest).drop ((c :: body).length - 1) = rest := by simp
    rw [List.cons_append, replaceAll, replaceFrom, if_pos hprefix, replaceFrom_eq_drop, hdrop]

/-- A character in front at which no occurrence begins is copied. -/
theorem replaceAll_cons {c : Char} {rest : List Char} (hnot : ¬ pattern <+: c :: rest) :
    replaceAll pattern new (c :: rest) = c :: replaceAll pattern new rest := by
  have hprefix : ¬ pattern.isPrefixOf (c :: rest) = true := by
    rwa [List.isPrefixOf_iff_prefix]
  rw [replaceAll, replaceFrom, if_neg hprefix]
  rfl

end ThroughputPlot.Text
