import ThroughputPlot.Table.Reader
import Mathlib.Tactic

/-!
# Tables and their layouts

The same records can be written down in many ways: any blanks may stand between two words and
at the ends of a line, blank lines may stand anywhere, and lines end with a line feed, with or
without a carriage return.  A layout is one such way.  The theory below says that reading a
table gives back the records of the layout, whichever it is, with short rows filled up, or
refuses the first row that is too long.
-/

namespace ThroughputPlot

namespace Layout

structure Token where
  text : String
  ne_nil : text.toList ≠ []
  not_blank : ∀ c ∈ text.toList, Text.isBlank c = false

structure Gap where
  text : List Char
  blank : ∀ c ∈ text, Text.isBlank c = true
  no_feed : '\n' ∉ text

structure Separator extends Gap where
  ne_nil : text ≠ []

/-- A line, without its end, that shows no token or some. -/
inductive Line where
  | blank (gap : Gap)
  | record (before : Gap) (first : Token) (others : List (Separator × Token)) (after : Gap)

inductive LineEnd where
  | feed
  | returnFeed

def othersText (others : List (Separator × Token)) : List Char :=
  others.flatMap fun other => other.1.text ++ other.2.text.toList

namespace Line

def tokens : Line → List Token
  | .blank _ => []
  | .record _ first others _ => first :: others.map Prod.snd

def text : Line → List Char
  | .blank gap => gap.text
  | .record before first others after =>
      before.text ++ first.text.toList ++ othersText others ++ after.text

end Line

def LineEnd.text : LineEnd → List Char
  | .feed => ['\n']
  | .returnFeed => ['\r', '\n']

end Layout

/-- A text as lines with their ends.  The last line has none, and is empty where the text
closes with a line end. -/
structure Layout where
  ended : List (Layout.Line × Layout.LineEnd)
  last : Layout.Line

namespace Layout

def text (layout : Layout) : List Char :=
  (layout.ended.flatMap fun line => line.1.text ++ line.2.text) ++ layout.last.text

/-- The tokens of the lines that show any, in order. -/
def records (layout : Layout) : List (List Token) :=
  (layout.ended.map (fun line => line.1.tokens) ++ [layout.last.tokens]).filter (!·.isEmpty)

/-! ## The words of a laid out line -/

theorem Separator.blank_of_head (separator : Separator) (rest : List Char) :
    ∀ c ∈ (separator.text ++ rest).head?, Text.isBlank c = true := by
  obtain ⟨⟨text, hblank, _⟩, hne⟩ := separator
  obtain ⟨d, text, rfl⟩ := List.exists_cons_of_ne_nil hne
  intro c hc
  obtain rfl : d = c := by simpa using hc
  exact hblank d (List.mem_cons_self ..)

theorem words_first_append_others (first : Token) (others : List (Separator × Token))
    {tail : List Char} (htail : ∀ c ∈ tail, Text.isBlank c = true) :
    Text.words (first.text.toList ++ (othersText others ++ tail)) =
      (first :: others.map Prod.snd).map (·.text.toList) := by
  induction others generalizing first with
  | nil =>
      have hhead : ∀ c ∈ tail.head?, Text.isBlank c = true :=
        fun c hc => htail c (List.mem_of_mem_head? hc)
      change Text.words (first.text.toList ++ tail) = [first.text.toList]
      rw [Text.words_append_of_not_blank first.ne_nil first.not_blank hhead,
        Text.words_of_blank htail]
  | cons other others ih =>
      obtain ⟨separator, next⟩ := other
      have hothers : othersText ((separator, next) :: others) ++ tail =
          separator.text ++ (next.text.toList ++ (othersText others ++ tail)) := by
        simp [othersText]
      rw [hothers, Text.words_append_of_not_blank first.ne_nil first.not_blank
        (separator.blank_of_head _), Text.words_append_of_blank separator.blank, ih next]
      rfl

theorem Line.words_text_append (line : Line) {tail : List Char}
    (htail : ∀ c ∈ tail, Text.isBlank c = true) :
    Text.words (line.text ++ tail) = line.tokens.map (·.text.toList) := by
  cases line with
  | blank gap =>
      rw [Line.text, Text.words_append_of_blank gap.blank, Text.words_of_blank htail]
      rfl
  | record before first others after =>
      have hafter : ∀ c ∈ after.text ++ tail, Text.isBlank c = true := by
        intro c hc
        exact (List.mem_append.mp hc).elim (after.blank c) (htail c)
      simp only [Line.text, List.append_assoc]
      rw [Text.words_append_of_blank before.blank]
      exact words_first_append_others first others hafter

theorem Line.words_text (line : Line) :
    Text.words line.text = line.tokens.map (·.text.toList) := by
  have hnone : ∀ c ∈ ([] : List Char), Text.isBlank c = true := by simp
  simpa using line.words_text_append hnone

theorem Token.feed_not_mem (token : Token) : '\n' ∉ token.text.toList := by
  intro hmem
  have hblank := token.not_blank '\n' hmem
  contradiction

theorem Line.feed_not_mem (line : Line) : '\n' ∉ line.text := by
  cases line with
  | blank gap => exact gap.no_feed
  | record before first others after =>
      have hothers : '\n' ∉ othersText others := by
        intro hmem
        obtain ⟨other, _, hother⟩ := List.mem_flatMap.mp hmem
        rcases List.mem_append.mp hother with hseparator | htoken
        · exact other.1.no_feed hseparator
        · exact other.2.feed_not_mem htoken
      simp only [Line.text, List.mem_append, not_or]
      exact ⟨⟨⟨before.no_feed, first.feed_not_mem⟩, hothers⟩, after.no_feed⟩

/-! ## The records of a laid out text -/

theorem wordRecords_of_feed_not_mem {line : List Char} (hline : '\n' ∉ line) :
    wordRecords line = [Text.words line].filter (!·.isEmpty) := by
  rw [wordRecords, Text.lines, Text.cutAt_of_not_mem hline]
  rfl

theorem wordRecords_append_feed {line : List Char} (hline : '\n' ∉ line) (rest : List Char) :
    wordRecords (line ++ '\n' :: rest) =
      [Text.words line].filter (!·.isEmpty) ++ wordRecords rest := by
  simp only [wordRecords, Text.lines]
  rw [Text.cutAt_append_cons hline, List.map_cons, ← List.filter_append]
  rfl

/-- A carriage return before the line feed is one more blank at the end of the line. -/
theorem wordRecords_line_append (line : Line) (lineEnd : LineEnd) (rest : List Char) :
    wordRecords (line.text ++ lineEnd.text ++ rest) =
      [line.tokens.map (·.text.toList)].filter (!·.isEmpty) ++ wordRecords rest := by
  cases lineEnd with
  | feed =>
      have htext : line.text ++ LineEnd.feed.text ++ rest = line.text ++ '\n' :: rest := by
        simp [LineEnd.text]
      rw [htext, wordRecords_append_feed line.feed_not_mem, line.words_text]
  | returnFeed =>
      have htext : line.text ++ LineEnd.returnFeed.text ++ rest =
          (line.text ++ ['\r']) ++ '\n' :: rest := by
        simp [LineEnd.text]
      have hfeed : '\n' ∉ line.text ++ ['\r'] := by
        simp [line.feed_not_mem]
      have hreturn : ∀ c ∈ ['\r'], Text.isBlank c = true := List.forall_mem_singleton.mpr rfl
      rw [htext, wordRecords_append_feed hfeed, line.words_text_append hreturn]

theorem wordRecords_text (layout : Layout) :
    wordRecords layout.text = layout.records.map (·.map (·.text.toList)) := by
  obtain ⟨ended, last⟩ := layout
  induction ended with
  | nil =>
      change wordRecords last.text = _
      rw [wordRecords_of_feed_not_mem last.feed_not_mem, last.words_text]
      cases htokens : last.tokens <;> simp [records, htokens]
  | cons line ended ih =>
      have htext : text ⟨line :: ended, last⟩ =
          line.1.text ++ line.2.text ++ text ⟨ended, last⟩ := by
        simp [text]
      rw [htext, wordRecords_line_append, ih]
      cases htokens : line.1.tokens <;> simp [records, htokens]

/-! ## Every text is laid out -/

def Gap.cons (gap : Gap) {c : Char} (hc : Text.isBlank c = true) (hfeed : '\n' ≠ c) : Gap where
  text := c :: gap.text
  blank := by
    intro d hd
    rcases List.mem_cons.mp hd with rfl | hd
    · exact hc
    · exact gap.blank d hd
  no_feed := by simp [hfeed, gap.no_feed]

def Token.singleton {c : Char} (hc : Text.isBlank c = false) : Token where
  text := String.ofList [c]
  ne_nil := by simp
  not_blank := by simpa using hc

def Token.cons (token : Token) {c : Char} (hc : Text.isBlank c = false) : Token where
  text := String.ofList (c :: token.text.toList)
  ne_nil := by simp
  not_blank := by
    intro d hd
    rw [String.toList_ofList] at hd
    rcases List.mem_cons.mp hd with rfl | hd
    · exact hc
    · exact token.not_blank d hd

theorem exists_line_of_cons (line : Line) {c : Char} (hfeed : '\n' ≠ c) :
    ∃ longer : Line, longer.text = c :: line.text := by
  cases hc : Text.isBlank c with
  | true =>
      cases line with
      | blank gap => exact ⟨.blank (gap.cons hc hfeed), rfl⟩
      | record before first others after =>
          exact ⟨.record (before.cons hc hfeed) first others after, rfl⟩
  | false =>
      let none : Gap := ⟨[], by simp, by simp⟩
      cases line with
      | blank gap => exact ⟨.record none (.singleton hc) [] gap, by
          simp [Line.text, none, Token.singleton, othersText]⟩
      | record before first others after =>
          -- Without blanks in between, the character is a part of the first token.
          by_cases hbefore : before.text = []
          · exact ⟨.record none (first.cons hc) others after, by
              simp [Line.text, none, Token.cons, hbefore]⟩
          · exact ⟨.record none (.singleton hc) ((⟨before, hbefore⟩, first) :: others) after, by
              simp [Line.text, none, Token.singleton, othersText]⟩

theorem exists_line {text : List Char} (hfeed : '\n' ∉ text) :
    ∃ line : Line, line.text = text := by
  induction text with
  | nil => exact ⟨.blank ⟨[], by simp, by simp⟩, rfl⟩
  | cons c text ih =>
      rw [List.mem_cons, not_or] at hfeed
      obtain ⟨line, rfl⟩ := ih hfeed.2
      exact exists_line_of_cons line hfeed.1

theorem exists_layout_of_lines {first : List Char} {others : List (List Char)}
    (hfeed : ∀ line ∈ first :: others, '\n' ∉ line) :
    ∃ layout : Layout, layout.text = ['\n'].intercalate (first :: others) := by
  induction others generalizing first with
  | nil =>
      obtain ⟨line, rfl⟩ := exists_line (hfeed first (List.mem_cons_self ..))
      exact ⟨⟨[], line⟩, by simp [text, List.intercalate]⟩
  | cons next others ih =>
      obtain ⟨line, rfl⟩ := exists_line (hfeed first (List.mem_cons_self ..))
      obtain ⟨layout, hlayout⟩ := ih fun other hother => hfeed other (List.mem_cons_of_mem _ hother)
      refine ⟨⟨(line, .feed) :: layout.ended, layout.last⟩, ?_⟩
      have htext : text ⟨(line, .feed) :: layout.ended, layout.last⟩ =
          line.text ++ '\n' :: layout.text := by
        simp [text, LineEnd.text]
      rw [htext, hlayout]
      simp [List.intercalate]

/-- Layouts leave no text out. -/
theorem exists_layout (text : List Char) : ∃ layout : Layout, layout.text = text := by
  have hne : Text.cutAt '\n' text ≠ [] := Text.cutAt_ne_nil text
  obtain ⟨first, others, hlines⟩ := List.exists_cons_of_ne_nil hne
  have hfeed : ∀ line ∈ first :: others, '\n' ∉ line := by
    intro line hline
    rw [← hlines] at hline
    exact Text.not_mem_of_mem_cutAt hline
  obtain ⟨layout, hlayout⟩ := exists_layout_of_lines hfeed
  exact ⟨layout, by rw [hlayout, ← hlines, Text.intercalate_cutAt]⟩

end Layout

/-! ## Rows brought to the width of the header -/

theorem result_fillRows_cons (source : String) (width row : ℕ) (cells : List String)
    (rest : List (List String)) :
    (fillRows source width row (cells :: rest)).result =
      if width < cells.length then .error (.extraFields source row width cells.length)
      else (fillRows source width (row + 1) rest).result.map (cells.rightpad width "nan" :: ·) := by
  by_cases hlong : width < cells.length
  · simp [fillRows, hlong, Except.bind]
  · rw [if_neg hlong]
    by_cases hshort : cells.length < width <;>
      simp [fillRows, hlong, hshort, Except.bind, List.rightpad]

theorem result_fillRows_of_fits (source : String) {width : ℕ} {rows : List (List String)}
    (hfits : ∀ cells ∈ rows, cells.length ≤ width) (row : ℕ) :
    (fillRows source width row rows).result = .ok (rows.map (·.rightpad width "nan")) := by
  induction rows generalizing row with
  | nil => rfl
  | cons cells rest ih =>
      have hcells : ¬ width < cells.length :=
        Nat.not_lt.mpr (hfits cells (List.mem_cons_self ..))
      have hrest : ∀ cells ∈ rest, cells.length ≤ width :=
        fun other hother => hfits other (List.mem_cons_of_mem _ hother)
      rw [result_fillRows_cons, if_neg hcells, ih hrest]
      rfl

/-- The first row that is too long ends the reading, whatever follows it. -/
theorem result_fillRows_of_long (source : String) {width : ℕ} {before after : List (List String)}
    {cells : List String} (hbefore : ∀ earlier ∈ before, earlier.length ≤ width)
    (hlong : width < cells.length) (row : ℕ) :
    (fillRows source width row (before ++ cells :: after)).result =
      .error (.extraFields source (row + before.length) width cells.length) := by
  induction before generalizing row with
  | nil => rw [List.nil_append, result_fillRows_cons, if_pos hlong]; rfl
  | cons earlier before ih =>
      have hearlier : ¬ width < earlier.length :=
        Nat.not_lt.mpr (hbefore earlier (List.mem_cons_self ..))
      have hrest : ∀ earlier ∈ before, earlier.length ≤ width :=
        fun other hother => hbefore other (List.mem_cons_of_mem _ hother)
      rw [List.cons_append, result_fillRows_cons, if_neg hearlier, ih hrest]
      simp only [Except.map, List.length_cons]
      rw [Nat.add_right_comm, Nat.add_assoc]

theorem result_read_of_textRecords (source : String) {text : List Char} {headers : List String}
    {rows : List (List String)} (hrecords : textRecords text = headers :: rows) :
    (Table.read source text).result =
      (fillRows source headers.length 1 rows).result.map (⟨source, headers, ·⟩) := by
  simp only [Table.read, hrecords, List.headD_cons, List.tail_cons, Report.result_bind,
    Report.result_log, Report.result_pure, Except.bind]
  cases (fillRows source headers.length 1 rows).result <;> rfl

namespace Layout

def StartsWithMark (tokens : List Token) : Prop :=
  ∃ first ∈ tokens.head?, first.text.toList.head? = some '\uFEFF'

theorem dropMark_eq_self {header : List Token} (hmark : ¬ StartsWithMark header)
    (rows : List (List (List Char))) :
    dropMark (header.map (·.text.toList) :: rows) = header.map (·.text.toList) :: rows := by
  unfold dropMark
  split
  next word fields records heq =>
      cases header with
      | nil => simp at heq
      | cons first others =>
          have hfirst : first.text.toList = '\uFEFF' :: word := by
            simpa using congrArg List.head? (List.cons.inj heq).1
          exact absurd ⟨first, rfl, by rw [hfirst]; rfl⟩ hmark
  next => rfl

theorem textRecords_text {layout : Layout} {header : List Token} {rows : List (List Token)}
    (hrecords : layout.records = header :: rows) (hmark : ¬ StartsWithMark header) :
    textRecords layout.text = header.map Token.text :: rows.map (·.map Token.text) := by
  have hwords := layout.wordRecords_text
  rw [hrecords, List.map_cons] at hwords
  rw [textRecords, hwords, dropMark_eq_self hmark]
  simp [Function.comp_def]

end Layout

/-- Reading a table undoes every layout of it.  Short rows are filled up with `nan`, and the
first row with more tokens than the header is refused by its number among the rows. -/
theorem Table.read_layout (source : String) (layout : Layout) :
    (layout.records = [] → (Table.read source layout.text).result = .ok ⟨source, [], []⟩) ∧
    ∀ header rows, layout.records = header :: rows → ¬ Layout.StartsWithMark header →
      ((∀ cells ∈ rows, cells.length ≤ header.length) →
        (Table.read source layout.text).result =
          .ok ⟨source, header.map (·.text),
            rows.map fun cells => (cells.map (·.text)).rightpad header.length "nan"⟩) ∧
      ∀ before cells after, rows = before ++ cells :: after →
        (∀ earlier ∈ before, earlier.length ≤ header.length) → header.length < cells.length →
        (Table.read source layout.text).result =
          .error (.extraFields source (before.length + 1) header.length cells.length) := by
  refine ⟨fun hrecords => ?_, fun header rows hrecords hmark => ?_⟩
  · have hwords : wordRecords layout.text = [] := by
      rw [layout.wordRecords_text, hrecords]
      rfl
    simp [Table.read, textRecords, hwords, dropMark, fillRows, Except.map]
  · have hread := result_read_of_textRecords source (Layout.textRecords_text hrecords hmark)
    rw [List.length_map] at hread
    refine ⟨fun hfits => ?_, fun before cells after hrows hbefore hlong => ?_⟩
    · have hcells : ∀ cells ∈ rows.map (·.map Layout.Token.text), cells.length ≤ header.length := by
        simpa using hfits
      rw [hread, result_fillRows_of_fits source hcells]
      simp [Except.map, Function.comp_def]
    · have hearlier : ∀ earlier ∈ before.map (·.map Layout.Token.text),
          earlier.length ≤ header.length := by
        simpa using hbefore
      have hcells : header.length < (cells.map Layout.Token.text).length := by
        simpa using hlong
      rw [hread, hrows, List.map_append, List.map_cons,
        result_fillRows_of_long source hearlier hcells]
      simp [Except.map, Nat.add_comm]

def Layout.Token.ofWord (word : String) (hne : word.toList ≠ [])
    (hword : word.toList.all fun c => !Text.isBlank c) : Layout.Token where
  text := word
  ne_nil := hne
  not_blank := by simpa using hword

def Layout.Gap.ofBlanks (blanks : List Char)
    (hblanks : blanks.all fun c => Text.isBlank c && c ≠ '\n') : Layout.Gap where
  text := blanks
  blank := by
    intro c hc
    have hboth := List.all_eq_true.mp hblanks c hc
    exact (Bool.and_eq_true_iff.mp hboth).1
  no_feed := by
    intro hfeed
    have hboth := List.all_eq_true.mp hblanks '\n' hfeed
    contradiction

/-- A header, a blank line, a short row and a long one. -/
def Layout.ragged : Layout :=
  let none : Gap := .ofBlanks [] rfl
  let tab : Gap := .ofBlanks ['\t'] rfl
  let wide : Separator := ⟨.ofBlanks [' ', '\u00A0'] rfl, List.cons_ne_nil _ _⟩
  { ended := [
      (.record tab (.ofWord "x_0" (by simp) rfl) [(wide, .ofWord "y_0" (by simp) rfl)] none,
        .returnFeed),
      (.blank tab, .feed),
      (.record none (.ofWord "1" (by simp) rfl) [] tab, .feed)]
    last := .record none (.ofWord "2" (by simp) rfl)
      [(wide, .ofWord "20" (by simp) rfl), (wide, .ofWord "200" (by simp) rfl)] none }

theorem Table.read_ragged :
    ∃ header short long, Layout.ragged.records = [header, short, long] ∧
      ¬ Layout.StartsWithMark header ∧ short.length ≤ header.length ∧
      header.length < long.length ∧
      (Table.read "rhm-churn.txt" Layout.ragged.text).result =
        .error (.extraFields "rhm-churn.txt" 2 2 3) := by
  have hmark : ¬ Layout.StartsWithMark (Layout.ragged.records.headD []) := by
    rintro ⟨first, hfirst, hhead⟩
    obtain rfl : _ = first := Option.some.inj hfirst
    revert hhead
    decide
  refine ⟨_, _, _, rfl, hmark, by decide, by decide, ?_⟩
  exact ((Table.read_layout "rhm-churn.txt" Layout.ragged).2 _ _ rfl hmark).2 [_] _ [] rfl
    (by decide) (by decide)

end ThroughputPlot
