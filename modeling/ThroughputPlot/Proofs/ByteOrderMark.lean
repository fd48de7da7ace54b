import ThroughputPlot.Proofs.Layout
import Mathlib.Tactic

/-!
# Tables behind a byte order mark

The words of a text are cut before its byte order mark is dropped, and the mark is no blank.  So
it becomes a part of the word behind it, or a record of its own before a blank line or the end of
the text, and goes without a trace.  Only where blanks and a word follow it on its own line is it
a word of its own, and the word that is left of it is empty.  Such a text has one column more,
which has no name and stands before all others.
-/

namespace ThroughputPlot

def byteOrderMark : Char := '\uFEFF'

namespace Text

def firstLine (text : List Char) : List Char := (lines text).headD []

/-- The first line shows something, but starts with a blank. -/
def IsIndented (text : List Char) : Prop :=
  (∃ c ∈ (firstLine text).head?, isBlank c = true) ∧ ∃ c ∈ firstLine text, isBlank c = false

theorem lines_eq (text : List Char) : lines text = firstLine text :: (lines text).tail := by
  have hlines : lines text ≠ [] := cutAt_ne_nil text
  obtain ⟨line, others, htext⟩ := List.exists_cons_of_ne_nil hlines
  rw [firstLine, htext]
  rfl

theorem lines_cons {c : Char} (hc : c ≠ '\n') (text : List Char) :
    lines (c :: text) = (c :: firstLine text) :: (lines text).tail := by
  have hcut : lines (c :: text) = (lines text).modifyHead (c :: ·) := by
    rw [lines, cutAt_cons, if_neg hc]
    rfl
  rw [hcut, lines_eq text, List.modifyHead_cons]
  rfl

/-- A character that is not blank opens a word or goes before the open one. -/
theorem words_cons_of_not_blank {c : Char} (hc : isBlank c = false) (line : List Char) :
    words (c :: line) =
      (c :: (line.foldr wordStep ([], [])).1) :: (line.foldr wordStep ([], [])).2 := by
  simp [words, wordStep, hc, consWord]

theorem words_cons_of_blank {c : Char} (hc : isBlank c = true) (line : List Char) :
    words (c :: line) = words line :=
  words_append_of_blank (List.forall_mem_singleton.mpr hc) line

theorem words_eq_nil_iff {line : List Char} : words line = [] ↔ ∀ c ∈ line, isBlank c = true := by
  induction line with
  | nil => simp
  | cons c line ih =>
      rw [List.forall_mem_cons]
      cases hc : isBlank c with
      | true => simp [words_cons_of_blank hc, ih]
      | false => simp [words_cons_of_not_blank hc]

end Text

/-! ## The records of a text, from its first line on -/

/-- The records that do not come from the first line. -/
def laterRecords (text : List Char) : List (List (List Char)) :=
  ((Text.lines text).tail.map Text.words).filter (!·.isEmpty)

theorem wordRecords_of_blank_line {text : List Char}
    (hline : Text.words (Text.firstLine text) = []) : wordRecords text = laterRecords text := by
  rw [wordRecords, Text.lines_eq, List.map_cons, hline, List.filter_cons_of_neg (by simp)]
  rfl

theorem wordRecords_of_line {text : List Char}
    (hline : Text.words (Text.firstLine text) ≠ []) :
    wordRecords text = Text.words (Text.firstLine text) :: laterRecords text := by
  rw [wordRecords, Text.lines_eq, List.map_cons, List.filter_cons_of_pos (by simpa using hline)]
  rfl

theorem firstLine_cons {c : Char} (hc : c ≠ '\n') (text : List Char) :
    Text.firstLine (c :: text) = c :: Text.firstLine text := by
  rw [Text.firstLine, Text.lines_cons hc]
  rfl

theorem laterRecords_cons {c : Char} (hc : c ≠ '\n') (text : List Char) :
    laterRecords (c :: text) = laterRecords text := by
  rw [laterRecords, Text.lines_cons hc]
  rfl

theorem wordRecords_cons_of_not_blank {c : Char} (hc : Text.isBlank c = false) (text : List Char) :
    wordRecords (c :: text) = Text.words (c :: Text.firstLine text) :: laterRecords text := by
  have hfeed : c ≠ '\n' := by
    rintro rfl
    contradiction
  have hline : Text.words (Text.firstLine (c :: text)) ≠ [] := by
    rw [firstLine_cons hfeed, Text.words_cons_of_not_blank hc]
    exact List.cons_ne_nil _ _
  rw [wordRecords_of_line hline, firstLine_cons hfeed, laterRecords_cons hfeed]

theorem wordRecords_cons_of_blank {c : Char} (hc : Text.isBlank c = true) (text : List Char) :
    wordRecords (c :: text) = wordRecords text := by
  by_cases hfeed : c = '\n'
  · rw [hfeed, wordRecords, Text.lines, Text.cutAt_cons, if_pos rfl]
    rfl
  · rw [wordRecords, wordRecords, Text.lines_cons hfeed, Text.lines_eq text, List.map_cons,
      List.map_cons, Text.words_cons_of_blank hc]
    rfl

theorem wordRecords_dropWhile (text : List Char) :
    wordRecords (text.dropWhile Text.isBlank) = wordRecords text := by
  induction text with
  | nil => rfl
  | cons c text ih =>
      cases hc : Text.isBlank c with
      | true => rw [List.dropWhile_cons_of_pos hc, ih, wordRecords_cons_of_blank hc]
      | false => rw [List.dropWhile_cons_of_neg (by simp [hc])]

/-- Whether there is a mark to drop is seen from the first character that is not blank. -/
theorem dropMark_wordRecords {text : List Char}
    (hmark : (text.dropWhile Text.isBlank).head? ≠ some byteOrderMark) :
    dropMark (wordRecords text) = wordRecords text := by
  rw [← wordRecords_dropWhile]
  cases htext : text.dropWhile Text.isBlank with
  | nil => rfl
  | cons c rest =>
      have hc : Text.isBlank c = false := by
        have hhead := List.head_dropWhile_not Text.isBlank (l := text) (by simp [htext])
        simpa [htext] using hhead
      have hne : c ≠ '\uFEFF' := by simpa [htext, byteOrderMark] using hmark
      rw [wordRecords_cons_of_not_blank hc, Text.words_cons_of_not_blank hc]
      simp [dropMark, hne]

/-! ## The records behind a mark -/

theorem isBlank_byteOrderMark : Text.isBlank byteOrderMark = false := rfl

/-- Before a blank or the end of a line the mark is a word of its own. -/
theorem words_mark_cons {line : List Char} (hline : ∀ c ∈ line.head?, Text.isBlank c = true) :
    Text.words (byteOrderMark :: line) = [byteOrderMark] :: Text.words line :=
  Text.words_append_of_not_blank (List.cons_ne_nil _ _)
    (List.forall_mem_singleton.mpr isBlank_byteOrderMark) hline

theorem dropMark_of_not_isIndented {text : List Char} (hplain : ¬ Text.IsIndented text) :
    dropMark (wordRecords (byteOrderMark :: text)) = wordRecords text := by
  rw [wordRecords_cons_of_not_blank isBlank_byteOrderMark]
  by_cases hhead : ∀ c ∈ (Text.firstLine text).head?, Text.isBlank c = true
  · have hblank : Text.words (Text.firstLine text) = [] := by
      rw [Text.words_eq_nil_iff]
      intro c hc
      by_contra hshown
      obtain ⟨first, others, hline⟩ := List.exists_cons_of_ne_nil (List.ne_nil_of_mem hc)
      have hfirst : first ∈ (Text.firstLine text).head? := by
        rw [hline]
        rfl
      exact hplain ⟨⟨first, hfirst, hhead first hfirst⟩, c, hc, by simpa using hshown⟩
    rw [words_mark_cons hhead, hblank, wordRecords_of_blank_line hblank]
    rfl
  · obtain ⟨c, rest, hline, hc⟩ : ∃ c rest, Text.firstLine text = c :: rest ∧
        Text.isBlank c = false := by
      cases hline : Text.firstLine text <;> simp_all
    have hwords : Text.words (Text.firstLine text) ≠ [] := by
      rw [hline, Text.words_cons_of_not_blank hc]
      exact List.cons_ne_nil _ _
    rw [wordRecords_of_line hwords, hline, Text.words_cons_of_not_blank isBlank_byteOrderMark,
      Text.words_cons_of_not_blank hc, List.foldr_cons]
    simp [Text.wordStep, hc, dropMark, byteOrderMark]

theorem dropMark_of_isIndented {text : List Char} (hindented : Text.IsIndented text) :
    ∃ header rows, wordRecords text = header :: rows ∧
      dropMark (wordRecords (byteOrderMark :: text)) = ([] :: header) :: rows := by
  obtain ⟨⟨c, hc, hblank⟩, d, hd, hshown⟩ := hindented
  have hhead : ∀ c ∈ (Text.firstLine text).head?, Text.isBlank c = true := by
    intro c' hc'
    obtain rfl : c = c' := Option.mem_unique hc hc'
    exact hblank
  have hwords : Text.words (Text.firstLine text) ≠ [] := by
    intro hnil
    have hall := Text.words_eq_nil_iff.mp hnil d hd
    rw [hshown] at hall
    contradiction
  refine ⟨_, _, wordRecords_of_line hwords, ?_⟩
  rw [wordRecords_cons_of_not_blank isBlank_byteOrderMark, words_mark_cons hhead]
  simp [dropMark, byteOrderMark, hwords]

theorem textRecords_mark {text : List Char}
    (hmark : (text.dropWhile Text.isBlank).head? ≠ some byteOrderMark)
    (hplain : ¬ Text.IsIndented text) :
    textRecords (byteOrderMark :: text) = textRecords text := by
  rw [textRecords, textRecords, dropMark_of_not_isIndented hplain, dropMark_wordRecords hmark]

/-- An indented header gets an empty word in front. -/
theorem textRecords_mark_of_isIndented {text : List Char}
    (hmark : (text.dropWhile Text.isBlank).head? ≠ some byteOrderMark)
    (hindented : Text.IsIndented text) :
    ∃ header rows, textRecords text = header :: rows ∧
      textRecords (byteOrderMark :: text) = ("" :: header) :: rows := by
  obtain ⟨header, rows, hrecords, hmarked⟩ := dropMark_of_isIndented hindented
  refine ⟨header.map String.ofList, rows.map (·.map String.ofList), ?_, ?_⟩
  · rw [textRecords, dropMark_wordRecords hmark, hrecords]
    rfl
  · rw [textRecords, hmarked]
    rfl

/-! ## Rows under a header with one more column -/

theorem result_fillRows_succ {source : String} {width row : ℕ} {rows filled : List (List String)}
    (hfilled : (fillRows source width row rows).result = .ok filled) :
    (fillRows source (width + 1) row rows).result = .ok (filled.map (· ++ ["nan"])) := by
  induction rows generalizing row filled with
  | nil =>
      obtain rfl := Except.ok.inj hfilled
      rfl
  | cons cells rest ih =>
      rw [result_fillRows_cons] at hfilled ⊢
      split at hfilled
      · contradiction
      · rename_i hfits
        cases hrest : (fillRows source width (row + 1) rest).result with
        | error e =>
            rw [hrest] at hfilled
            contradiction
        | ok others =>
            rw [hrest] at hfilled
            obtain rfl := Except.ok.inj hfilled
            have hwider : ¬ width + 1 < cells.length := by omega
            have hpadded : cells.rightpad (width + 1) "nan" =
                cells.rightpad width "nan" ++ ["nan"] := by
              rw [List.rightpad, List.rightpad, Nat.succ_sub (Nat.not_lt.mp hfits),
                List.replicate_succ', List.append_assoc]
            rw [if_neg hwider, ih hrest, hpadded]
            rfl

/-- A row that is refused is refused with the width that was asked for. -/
theorem exists_of_fillRows_eq_error {source : String} {width row : ℕ} {rows : List (List String)}
    {e : PlotError} (herror : (fillRows source width row rows).result = .error e) :
    ∃ place found, e = .extraFields source place width found := by
  induction rows generalizing row with
  | nil => contradiction
  | cons cells rest ih =>
      rw [result_fillRows_cons] at herror
      split at herror
      · exact ⟨row, cells.length, (Except.error.inj herror).symm⟩
      · cases hrest : (fillRows source width (row + 1) rest).result with
        | error e' =>
            rw [hrest] at herror
            obtain rfl := Except.error.inj herror
            exact ih hrest
        | ok others =>
            rw [hrest] at herror
            contradiction

theorem exists_of_read_eq_error {source : String} {text : List Char} {header : List String}
    {rows : List (List String)} {e : PlotError} (hrecords : textRecords text = header :: rows)
    (herror : (Table.read source text).result = .error e) :
    ∃ place found, e = .extraFields source place header.length found := by
  rw [result_read_of_textRecords source hrecords] at herror
  cases hfilled : (fillRows source header.length 1 rows).result with
  | error e' =>
      rw [hfilled] at herror
      obtain rfl := Except.error.inj herror
      exact exists_of_fillRows_eq_error hfilled
  | ok filled =>
      rw [hfilled] at herror
      contradiction

/-! ## Reading a marked text -/

/-- A mark before a text changes nothing, warnings included, if and only if the text is not
indented.  Before an indented text it puts a column without a name in front, so that every column
reads the cells of the next one, and the last column reads `nan`. -/
theorem Table.read_mark_iff (source : String) {text : List Char}
    (hmark : (text.dropWhile Text.isBlank).head? ≠ some byteOrderMark) :
    ((Table.read source (byteOrderMark :: text)).result = (Table.read source text).result ↔
      ¬ Text.IsIndented text) ∧
    (¬ Text.IsIndented text →
      Table.read source (byteOrderMark :: text) = Table.read source text) ∧
    (Text.IsIndented text → ∀ table, (Table.read source text).result = .ok table →
      (Table.read source (byteOrderMark :: text)).result =
        .ok ⟨source, "" :: table.headers, table.rows.map (· ++ ["nan"])⟩) := by
  have hsame : ¬ Text.IsIndented text →
      Table.read source (byteOrderMark :: text) = Table.read source text := by
    intro hplain
    rw [Table.read, Table.read, textRecords_mark hmark hplain]
  have hshifted : Text.IsIndented text → ∀ table, (Table.read source text).result = .ok table →
      (Table.read source (byteOrderMark :: text)).result =
        .ok ⟨source, "" :: table.headers, table.rows.map (· ++ ["nan"])⟩ := by
    intro hindented table htable
    obtain ⟨header, rows, hrecords, hmarked⟩ := textRecords_mark_of_isIndented hmark hindented
    rw [result_read_of_textRecords source hrecords] at htable
    rw [result_read_of_textRecords source hmarked, List.length_cons]
    cases hfilled : (fillRows source header.length 1 rows).result with
    | error e =>
        rw [hfilled] at htable
        contradiction
    | ok filled =>
        rw [hfilled] at htable
        obtain rfl := Except.ok.inj htable
        rw [result_fillRows_succ hfilled]
        rfl
  refine ⟨⟨fun heq hindented => ?_, fun hplain => by rw [hsame hplain]⟩, hsame, hshifted⟩
  cases htable : (Table.read source text).result with
  | ok table =>
      rw [htable, hshifted hindented table htable] at heq
      have hheaders : "" :: table.headers = table.headers :=
        congrArg Table.headers (Except.ok.inj heq)
      exact List.cons_ne_self _ _ hheaders
  | error e =>
      obtain ⟨header, rows, hrecords, hmarked⟩ := textRecords_mark_of_isIndented hmark hindented
      obtain ⟨_, _, hwidth⟩ := exists_of_read_eq_error hrecords htable
      obtain ⟨_, _, hwider⟩ := exists_of_read_eq_error hmarked (heq.trans htable)
      have hlength : header.length = ("" :: header).length := by
        rw [hwidth] at hwider
        exact (PlotError.extraFields.inj hwider).2.2.1
      exact absurd hlength (by simp)

/-- A marked text with a blank line in front and blanks around its words. -/
def markedLines : List Char := "\t \r\n x_0\ty_0 \n1 2\n3\n".toList

theorem Table.read_mark_markedLines :
    (markedLines.dropWhile Text.isBlank).head? ≠ some byteOrderMark ∧
    ¬ Text.IsIndented markedLines ∧
    Table.read "t.txt" (byteOrderMark :: markedLines) = Table.read "t.txt" markedLines ∧
    (Table.read "t.txt" markedLines).result =
      .ok ⟨"t.txt", ["x_0", "y_0"], [["1", "2"], ["3", "nan"]]⟩ := by
  have hmark : (markedLines.dropWhile Text.isBlank).head? ≠ some byteOrderMark := by decide
  have hplain : ¬ Text.IsIndented markedLines := by
    have hblank : (Text.firstLine markedLines).all Text.isBlank = true := by decide +kernel
    rintro ⟨_, c, hc, hshown⟩
    have hshown' : Text.isBlank c = true := List.all_eq_true.mp hblank c hc
    exact Bool.false_ne_true (hshown.symm.trans hshown')
  refine ⟨hmark, hplain, (Table.read_mark_iff "t.txt" hmark).2.1 hplain, ?_⟩
  decide +kernel

theorem Table.read_mark_indented :
    let text := " x_0 y_0\n1 2\n".toList
    (text.dropWhile Text.isBlank).head? ≠ some byteOrderMark ∧
    (Table.read "t.txt" text).result = .ok ⟨"t.txt", ["x_0", "y_0"], [["1", "2"]]⟩ ∧
    (Table.read "t.txt" (byteOrderMark :: text)).result =
      .ok ⟨"t.txt", ["", "x_0", "y_0"], [["1", "2", "nan"]]⟩ := by
  decide +kernel

end ThroughputPlot
