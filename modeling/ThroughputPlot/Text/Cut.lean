/-!
# Cutting a text at a character

A text is cut into the pieces between the occurrences of a mark.  There is always one
piece more than there are marks, and a piece may be empty.  The pieces with marks
between them are the text again, and no piece holds the mark.  What stands before the first
mark is also found by looking for it from the front.
-/

namespace ThroughputPlot.Text

/-- One character put before a text that is already cut into a first piece and the others. -/
def cutStep (mark c : Char) (cut : List Char × List (List Char)) :
    List Char × List (List Char) :=
  if c = mark then ([], cut.1 :: cut.2) else (c :: cut.1, cut.2)

/-- The pieces of a text between the occurrences of a mark. -/
def cutAt (mark : Char) (text : List Char) : List (List Char) :=
  let cut := text.foldr (cutStep mark) ([], [])
  cut.1 :: cut.2

variable {mark : Char}

@[simp] theorem cutAt_nil : cutAt mark [] = [[]] := rfl

theorem cutAt_cons (c : Char) (text : List Char) :
    cutAt mark (c :: text) =
      if c = mark then [] :: cutAt mark text else (cutAt mark text).modifyHead (c :: ·) := by
  simp only [cutAt, List.foldr_cons, cutStep]
  split <;> simp

theorem cutAt_ne_nil (text : List Char) : cutAt mark text ≠ [] := by
  simp [cutAt]

/-- A text without the mark is its own only piece. -/
theorem cutAt_of_not_mem {text : List Char} (h : mark ∉ text) : cutAt mark text = [text] := by
  induction text with
  | nil => rfl
  | cons c text ih =>
    have hc : c ≠ mark := fun heq => h (heq ▸ List.mem_cons_self ..)
    have htext : mark ∉ text := fun hmem => h (List.mem_cons_of_mem _ hmem)
    rw [cutAt_cons, if_neg hc, ih htext, List.modifyHead_cons]

/-- What stands before a mark and what follows it are cut on their own. -/
theorem cutAt_append_mark (front text : List Char) :
    cutAt mark (front ++ mark :: text) = cutAt mark front ++ cutAt mark text := by
  induction front with
  | nil => rw [List.nil_append, cutAt_cons, if_pos rfl, cutAt_nil, List.singleton_append]
  | cons c front ih =>
    rw [List.cons_append, cutAt_cons, cutAt_cons, ih]
    split
    · rfl
    · have hne : cutAt mark front ≠ [] := cutAt_ne_nil front
      obtain ⟨piece, pieces, h⟩ := List.exists_cons_of_ne_nil hne
      rw [h]
      rfl

/-- The first piece ends at the first mark. -/
theorem cutAt_append_cons {piece : List Char} (h : mark ∉ piece) (text : List Char) :
    cutAt mark (piece ++ mark :: text) = piece :: cutAt mark text := by
  rw [cutAt_append_mark, cutAt_of_not_mem h, List.singleton_append]

/-- The pieces with marks between them are the text. -/
theorem intercalate_cutAt (text : List Char) : [mark].intercalate (cutAt mark text) = text := by
  induction text with
  | nil => rfl
  | cons c text ih =>
    rw [cutAt_cons]
    obtain ⟨piece, pieces, h⟩ := List.exists_cons_of_ne_nil (cutAt_ne_nil text)
    rw [h] at ih ⊢
    split
    · rename_i hc
      rw [← ih, hc]
      simp [List.intercalate]
    · rw [← ih]
      cases pieces <;> simp [List.intercalate]

/-- No piece holds the mark. -/
theorem not_mem_of_mem_cutAt {text piece : List Char} (h : piece ∈ cutAt mark text) :
    mark ∉ piece := by
  induction text generalizing piece with
  | nil =>
    rw [cutAt_nil, List.mem_singleton] at h
    simp [h]
  | cons c text ih =>
    rw [cutAt_cons] at h
    split at h
    · rcases List.mem_cons.1 h with rfl | h
      · simp
      · exact ih h
    · rename_i hc
      obtain ⟨first, pieces, hcut⟩ :=
        List.exists_cons_of_ne_nil (cutAt_ne_nil text)
      rw [hcut] at h ih
      rcases List.mem_cons.1 h with rfl | h
      · have := ih (List.mem_cons_self ..)
        simp [this, Ne.symm hc]
      · exact ih (List.mem_cons_of_mem _ h)

/-! ## The first mark -/

theorem takeWhile_ne_append {front : List Char} (h : mark ∉ front) (rest : List Char) :
    (front ++ mark :: rest).takeWhile (· ≠ mark) = front := by
  rw [List.takeWhile_append_of_pos]
  · simp
  · intro c hc
    have hne : c ≠ mark := fun heq => h (heq ▸ hc)
    simpa using hne

theorem dropWhile_ne_append {front : List Char} (h : mark ∉ front) (rest : List Char) :
    (front ++ mark :: rest).dropWhile (· ≠ mark) = mark :: rest := by
  rw [List.dropWhile_append_of_pos]
  · simp
  · intro c hc
    have hne : c ≠ mark := fun heq => h (heq ▸ hc)
    simpa using hne

/-- Where the text does not run out there is a first mark. -/
theorem eq_append_of_dropWhile {text rest : List Char} {c : Char}
    (h : text.dropWhile (· ≠ mark) = c :: rest) :
    c = mark ∧ mark ∉ text.takeWhile (· ≠ mark) ∧
      text = text.takeWhile (· ≠ mark) ++ mark :: rest := by
  induction text with
  | nil => exact absurd h (by simp)
  | cons d text ih =>
    by_cases hd : d = mark
    · subst hd
      rw [List.dropWhile_cons, if_neg (by simp), List.cons.injEq] at h
      simp [h]
    · rw [List.dropWhile_cons, if_pos (by simpa using hd)] at h
      obtain ⟨hc, hmem, htext⟩ := ih h
      have htake : (d :: text).takeWhile (· ≠ mark) = d :: text.takeWhile (· ≠ mark) := by
        rw [List.takeWhile_cons, if_pos (by simpa using hd)]
      refine ⟨hc, ?_, ?_⟩
      · rw [htake, List.mem_cons, not_or]
        exact ⟨Ne.symm hd, hmem⟩
      · rw [htake, List.cons_append, ← htext]

end ThroughputPlot.Text
