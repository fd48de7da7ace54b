import ThroughputPlot.Proofs.ByteOrderMark
import ThroughputPlot.Proofs.Calls
import ThroughputPlot.Proofs.Literals
import ThroughputPlot.Proofs.Losses

/-!
# Tables with a broken byte

Among ASCII bytes a byte from `0x80` up encodes no character, and the replacement character is
read for it, whichever byte it is.  That character is neither a blank nor a byte order mark, so
every token keeps its place in the table.  It stands in no number literal, so the one token that
holds it fails as a number, and the columns that do not show that token are as they were.
-/

namespace ThroughputPlot

open Run

/-! ## Reading bytes that are ASCII but for one -/

namespace Utf8

/-- The characters of bytes that are all ASCII. -/
def asciiText (bytes : Bytes) : List Char := bytes.map fun a => Char.ofNat a.toNat

theorem decodeLossy_cons_of_ascii {a : UInt8} (ha : a < 0x80) (rest : Bytes) :
    decodeLossy (a :: rest) = Char.ofNat a.toNat :: decodeLossy rest := by
  have hleading : leading a rest = (some (Char.ofNat a.toNat), 0) := if_pos ha
  simp [decodeLossy, decode, decodeFrom, hleading]

theorem isContinuation_of_ascii {c : UInt8} (hc : c < 0x80) : isContinuation c = false := by
  have hnot : ¬ 0x80 ≤ c := UInt8.not_le.mpr hc
  simp [isContinuation, hnot]

theorem isSecond_of_ascii {c : UInt8} (hc : c < 0x80) (b : UInt8) :
    isSecondOfThree b c = false ∧ isSecondOfFour b c = false := by
  have hcontinuation := isContinuation_of_ascii hc
  rw [UInt8.lt_iff_toNat_lt] at hc
  have hnot : ∀ n : UInt8, 0x80 ≤ n.toNat → ¬ n ≤ c := by
    intro n hn hle
    rw [UInt8.le_iff_toNat_le] at hle
    have hbound : (0x80 : UInt8).toNat = 128 := rfl
    omega
  constructor
  · simp [isSecondOfThree, hcontinuation, hnot]
  · simp [isSecondOfFour, hcontinuation, hnot]

/-- A byte that would open a longer character opens none before an ASCII byte or the end. -/
theorem leading_of_lone {b : UInt8} (hb : 0x80 ≤ b) {rest : Bytes}
    (hrest : ∀ c ∈ rest.head?, c < 0x80) : leading b rest = (none, 0) := by
  have hlarge : ¬ b < 0x80 := UInt8.not_lt.mpr hb
  cases rest with
  | nil => simp [leading, hlarge]
  | cons c rest =>
      have hc : c < 0x80 := hrest c rfl
      have hcontinuation := isContinuation_of_ascii hc
      obtain ⟨hthree, hfour⟩ := isSecond_of_ascii hc b
      unfold leading
      rw [if_neg hlarge]
      cases rest with
      | nil => simp [hcontinuation, hthree, hfour]
      | cons d rest =>
          cases rest with
          | nil => simp [hcontinuation, hthree, hfour]
          | cons e rest => simp [hcontinuation, hthree, hfour]

theorem decodeLossy_cons_of_lone {b : UInt8} (hb : 0x80 ≤ b) {rest : Bytes}
    (hrest : ∀ c ∈ rest.head?, c < 0x80) :
    decodeLossy (b :: rest) = '\uFFFD' :: decodeLossy rest := by
  simp [decodeLossy, decode, decodeFrom, leading_of_lone hb hrest]

theorem decodeLossy_append_of_ascii {front : Bytes} (hfront : ∀ a ∈ front, a < 0x80)
    (rest : Bytes) : decodeLossy (front ++ rest) = asciiText front ++ decodeLossy rest := by
  induction front with
  | nil => rfl
  | cons a front ih =>
      obtain ⟨ha, hmore⟩ := List.forall_mem_cons.mp hfront
      rw [List.cons_append, decodeLossy_cons_of_ascii ha, ih hmore]
      rfl

theorem decodeLossy_of_ascii {bytes : Bytes} (hbytes : ∀ a ∈ bytes, a < 0x80) :
    decodeLossy bytes = asciiText bytes := by
  have happend := decodeLossy_append_of_ascii hbytes []
  rw [List.append_nil] at happend
  rw [happend]
  exact List.append_nil _

theorem toNat_ofNat_toNat (a : UInt8) : (Char.ofNat a.toNat).toNat = a.toNat := by
  have hlt := a.toNat_lt
  have hvalid : a.toNat.isValidChar := .inl (by omega)
  rw [Char.ofNat, dif_pos hvalid]
  rfl

theorem byteOrderMark_not_mem {bytes : Bytes} (hbytes : ∀ a ∈ bytes, a < 0x80) :
    byteOrderMark ∉ asciiText bytes := by
  intro hmem
  obtain ⟨a, ha, hmark⟩ := List.mem_map.mp hmem
  have hsmall : a.toNat < 0x80 := UInt8.lt_iff_toNat_lt.mp (hbytes a ha)
  rw [← toNat_ofNat_toNat, hmark] at hsmall
  contradiction

end Utf8

/-! ## Words around a character -/

namespace Text

theorem words_cons_cons {c d : Char} (hc : isBlank c = false) (hd : isBlank d = false)
    (line : List Char) : words (c :: d :: line) = (words (d :: line)).modifyHead (c :: ·) := by
  rw [words_cons_of_not_blank hc, words_cons_of_not_blank hd, List.foldr_cons]
  simp [wordStep, hd]

theorem words_cons_of_head {c : Char} (hc : isBlank c = false) {line : List Char}
    (hline : ∀ d ∈ line.head?, isBlank d = true) : words (c :: line) = [c] :: words line :=
  words_append_of_not_blank (List.cons_ne_nil c []) (List.forall_mem_singleton.mpr hc) hline

theorem exists_modifyHead (c : Char) (before : List (List Char)) (front : List Char) :
    ∃ before' front', ∀ word rest,
      (before ++ (front ++ word) :: rest).modifyHead (c :: ·) =
        before' ++ (front' ++ word) :: rest := by
  cases before with
  | nil => exact ⟨[], c :: front, fun _ _ => rfl⟩
  | cons first before => exact ⟨(c :: first) :: before, front, fun _ _ => rfl⟩

/-- What stands before a character that is not blank is cut into words whatever follows, but for
the front of the word that the character belongs to. -/
theorem exists_words_before (left : List Char) :
    ∃ before front, ∀ {c : Char} {line word : List Char} {rest : List (List Char)},
      isBlank c = false → words (c :: line) = word :: rest →
      words (left ++ c :: line) = before ++ (front ++ word) :: rest := by
  induction left with
  | nil => exact ⟨[], [], fun _ hwords => hwords⟩
  | cons d left ih =>
      obtain ⟨before, front, hbefore⟩ := ih
      cases hd : isBlank d with
      | true =>
          refine ⟨before, front, fun hc hwords => ?_⟩
          rw [List.cons_append, words_cons_of_blank hd, hbefore hc hwords]
      | false =>
          obtain ⟨before', front', hopen⟩ := exists_modifyHead d before front
          cases left with
          | nil =>
              refine ⟨before', front', fun hc hwords => ?_⟩
              have hnext := hbefore hc hwords
              rw [List.nil_append] at hnext
              rw [List.cons_append, List.nil_append, words_cons_cons hd hc, hnext, hopen]
          | cons e left =>
              cases he : isBlank e with
              | true =>
                  refine ⟨[d] :: before, front, fun hc hwords => ?_⟩
                  rw [List.cons_append, words_cons_of_head hd (by simpa using he),
                    hbefore hc hwords]
                  rfl
              | false =>
                  refine ⟨before', front', fun hc hwords => ?_⟩
                  have hnext := hbefore hc hwords
                  rw [List.cons_append] at hnext
                  rw [List.cons_append, List.cons_append, words_cons_cons hd he, hnext, hopen]

/-- A character that is not blank belongs to one word of its line, and what stands around it in
that word and in the line does not depend on the character. -/
theorem exists_words_around (left right : List Char) :
    ∃ before front back after, ∀ {c : Char}, isBlank c = false →
      words (left ++ c :: right) = before ++ (front ++ c :: back) :: after ∧
      (words (left ++ [c])).length = before.length + 1 := by
  obtain ⟨before, front, hbefore⟩ := exists_words_before left
  refine ⟨before, front, _, _, fun hc => ⟨hbefore hc (words_cons_of_not_blank hc right), ?_⟩⟩
  rw [hbefore hc (words_cons_of_not_blank hc []), List.length_append]
  rfl

end Text

/-! ## Records around a line -/

theorem wordRecords_append_of_ends {before : List Char}
    (hends : before = [] ∨ before.getLast? = some '\n') (rest : List Char) :
    wordRecords (before ++ rest) = wordRecords before ++ wordRecords rest := by
  rcases hends with rfl | hlast
  · rfl
  · obtain ⟨front, rfl⟩ := List.getLast?_eq_some_iff.mp hlast
    simp only [wordRecords, Text.lines]
    rw [List.append_assoc, List.singleton_append, Text.cutAt_append_mark,
      Text.cutAt_append_mark, Text.cutAt_nil]
    simp

theorem firstLine_append {left : List Char} (hleft : '\n' ∉ left) (rest : List Char) :
    Text.firstLine (left ++ rest) = left ++ Text.firstLine rest ∧
      laterRecords (left ++ rest) = laterRecords rest := by
  induction left with
  | nil => exact ⟨rfl, rfl⟩
  | cons c left ih =>
      rw [List.mem_cons, not_or] at hleft
      obtain ⟨hfirst, hlater⟩ := ih hleft.2
      have hc : c ≠ '\n' := Ne.symm hleft.1
      rw [List.cons_append, firstLine_cons hc, laterRecords_cons hc, hfirst, hlater]
      exact ⟨rfl, rfl⟩

/-- The records of a text, with a character that is not blank somewhere in it, are those of the
lines before, then the line of the character, then the others. -/
theorem exists_wordRecords_around {earlier left : List Char}
    (hends : earlier = [] ∨ earlier.getLast? = some '\n') (hleft : '\n' ∉ left)
    (right : List Char) :
    ∃ before front back after later, ∀ {c : Char}, Text.isBlank c = false →
      wordRecords (earlier ++ (left ++ c :: right)) =
        wordRecords earlier ++ (before ++ (front ++ c :: back) :: after) :: later ∧
      (Text.words (left ++ [c])).length = before.length + 1 := by
  obtain ⟨before, front, back, after, haround⟩ :=
    Text.exists_words_around left (Text.firstLine right)
  refine ⟨before, front, back, after, laterRecords right, fun {c} hc => ?_⟩
  obtain ⟨hwords, hlength⟩ := haround hc
  refine ⟨?_, hlength⟩
  have hfeed : c ≠ '\n' := by
    rintro rfl
    contradiction
  obtain ⟨hfirst, hlater⟩ := firstLine_append hleft (c :: right)
  rw [firstLine_cons hfeed] at hfirst
  rw [laterRecords_cons hfeed] at hlater
  have hline : Text.words (Text.firstLine (left ++ c :: right)) ≠ [] := by
    rw [hfirst, hwords]
    simp
  rw [wordRecords_append_of_ends hends, wordRecords_of_line hline, hfirst, hwords, hlater]

theorem textRecords_of_not_mem {text : List Char} (hmark : byteOrderMark ∉ text) :
    textRecords text = (wordRecords text).map (·.map String.ofList) := by
  have hhead : (text.dropWhile Text.isBlank).head? ≠ some byteOrderMark := by
    intro hhead
    have hmem := List.mem_of_mem_head? hhead
    exact hmark ((List.dropWhile_sublist _).mem hmem)
  rw [textRecords, dropMark_wordRecords hhead]

/-! ## Tables that differ in one cell -/

theorem numbersFrom_append_cons_of_none (file column : String) (row : ℕ) (front : List String)
    {cell : String} (hcell : Binary64.ofLiteral? cell.toList = none) (back : List String) :
    numbersFrom file column row (front ++ cell :: back) =
        .error (.invalidNumber file column (row + front.length) cell) ∨
      ∃ earlier < front.length, ∃ value, ∀ rest, numbersFrom file column row (front ++ rest) =
        .error (.invalidNumber file column (row + earlier) value) := by
  cases hfront : numbersFrom file column row front with
  | ok xs =>
      left
      have hnumbers := exists_map_eq_map_some_iff.mp ⟨xs, numbersFrom_eq_ok_iff.mp hfront⟩
      exact numbersFrom_eq_error_iff.mpr ⟨front, cell, back, rfl, hnumbers, hcell, rfl⟩
  | error e =>
      right
      obtain ⟨before, value, after, rfl, hbefore, hvalue, _⟩ := numbersFrom_eq_error_iff.mp hfront
      refine ⟨before.length, by simp, value, fun rest => ?_⟩
      refine numbersFrom_eq_error_iff.mpr ⟨before, value, after ++ rest, ?_, hbefore, hvalue, rfl⟩
      rw [List.append_assoc, List.cons_append]

namespace Table

variable {table : Table} {name cell : String} {row column : ℕ}

/-- The cell of a row, counted from one, in a column, counted from zero. -/
def cell? (table : Table) (row column : ℕ) : Option String :=
  table.rows[row - 1]?.bind (·[column]?)

/-- The same table but for one cell. -/
def setCell (table : Table) (row column : ℕ) (cell : String) : Table :=
  { table with rows := table.rows.modify (row - 1) (·.set column cell) }

theorem isColumn_setCell_iff {index : ℕ} :
    (table.setCell row column cell).IsColumn name index ↔ table.IsColumn name index :=
  Iff.rfl

theorem cells_setCell_of_ne {index : ℕ} (hne : column ≠ index) :
    (table.setCell row column cell).cells index = table.cells index := by
  apply List.ext_getElem?
  intro place
  simp only [cells, setCell, List.getElem?_map, List.getElem?_modify]
  cases table.rows[place]? with
  | none => rfl
  | some cells => split <;> simp [List.getD_eq_getElem?_getD, List.getElem?_set_ne hne]

/-- The columns that do not show the cell are the same in both tables. -/
theorem column_setCell_of_not_isColumn (hother : ¬ table.IsColumn name column) :
    (table.setCell row column cell).column name = table.column name := by
  obtain hname | ⟨index, hindex⟩ := table.not_mem_or_isColumn name
  · rw [column_eq_of_not_mem hname]
    exact column_eq_of_not_mem hname
  · have hne : column ≠ index := by
      rintro rfl
      exact hother hindex
    rw [column_eq_of_isColumn hindex, column_eq_of_isColumn (isColumn_setCell_iff.mpr hindex),
      cells_setCell_of_ne hne]
    rfl

section

variable {before after : List (List String)} {left right : List String} {old : String}
  (hrows : table.rows = before ++ (left ++ old :: right) :: after)

include hrows

theorem cell?_of_rows : table.cell? (before.length + 1) left.length = some old := by
  simp [cell?, hrows]

theorem rows_setCell (cell : String) :
    (table.setCell (before.length + 1) left.length cell).rows =
      before ++ (left ++ cell :: right) :: after := by
  simp [setCell, hrows, List.modify_eq_set_getElem?]

theorem cells_of_rows :
    table.cells left.length =
      before.map (·.getD left.length "nan") ++ old :: after.map (·.getD left.length "nan") := by
  simp [cells, hrows, List.getD_eq_getElem?_getD]

/-- A cell that is no number is blamed for its column, unless an earlier one already was. -/
theorem column_setCell_of_isColumn (hcolumn : table.IsColumn name left.length)
    (hcell : Binary64.ofLiteral? cell.toList = none) :
    (table.setCell (before.length + 1) left.length cell).column name =
        .error (.invalidNumber table.source name (before.length + 1) cell) ∨
      ∃ earlier < before.length + 1, ∃ value,
        table.column name = .error (.invalidNumber table.source name earlier value) ∧
        (table.setCell (before.length + 1) left.length cell).column name = table.column name := by
  have hcells := cells_of_rows hrows
  have hset := cells_of_rows (rows_setCell hrows cell)
  have hlength : (before.map (·.getD left.length "nan")).length = before.length :=
    List.length_map _
  rw [column_eq_of_isColumn hcolumn, column_eq_of_isColumn (isColumn_setCell_iff.mpr hcolumn),
    hcells, hset]
  rcases numbersFrom_append_cons_of_none table.source name 1 _ hcell _ with
    hfails | ⟨earlier, hearlier, value, hfails⟩
  · left
    rw [hlength, Nat.add_comm] at hfails
    exact hfails
  · right
    refine ⟨1 + earlier, by omega, value, hfails _, ?_⟩
    exact (hfails _).trans (hfails _).symm

end

end Table

/-! ## Reading tables that differ in one word -/

namespace Table

theorem rows_of_read {source : String} {text : List Char} {table : Table} {headers : List String}
    {rows : List (List String)} (hrecords : textRecords text = headers :: rows)
    (hread : (Table.read source text).result = .ok table) :
    (∀ cells ∈ rows, cells.length ≤ headers.length) ∧
      table = ⟨source, headers, rows.map (·.rightpad headers.length "nan")⟩ := by
  rw [result_read_of_textRecords source hrecords] at hread
  rcases rows_fit_or_first_long headers.length rows with
    hfits | ⟨before, cells, after, rfl, hbefore, hlong⟩
  · rw [result_fillRows_of_fits source hfits] at hread
    exact ⟨hfits, (Except.ok.inj hread).symm⟩
  · rw [result_fillRows_of_long source hbefore hlong] at hread
    contradiction

theorem rightpad_append_cons (left : List String) (word : String) (right : List String)
    (width : ℕ) :
    (left ++ word :: right).rightpad width "nan" =
      left ++ word ::
        (right ++ List.replicate (width - (left.length + 1 + right.length)) "nan") := by
  simp [List.rightpad, Nat.add_comm right.length, ← Nat.add_assoc]

/-- Where one text gives a table, another that has a different word in one place of a row gives
the same table with that word in its cell. -/
theorem read_of_other_word {source : String} {text text' : List Char} {table : Table}
    {headers left right : List String} {before after : List (List String)} {word word' : String}
    (hrecords : textRecords text = headers :: (before ++ (left ++ word :: right) :: after))
    (hrecords' : textRecords text' = headers :: (before ++ (left ++ word' :: right) :: after))
    (hread : (Table.read source text).result = .ok table) :
    ∃ before' right' after', before'.length = before.length ∧
      table.rows = before' ++ (left ++ word :: right') :: after' ∧
      (Table.read source text').result =
        .ok (table.setCell (before.length + 1) left.length word') := by
  obtain ⟨hfits, rfl⟩ := rows_of_read hrecords hread
  have hlength : (left ++ word' :: right).length = (left ++ word :: right).length := by simp
  have hfits' : ∀ cells ∈ before ++ (left ++ word' :: right) :: after,
      cells.length ≤ headers.length := by
    rw [List.forall_mem_append, List.forall_mem_cons] at hfits ⊢
    rwa [hlength]
  refine ⟨before.map (·.rightpad headers.length "nan"),
    right ++ List.replicate (headers.length - (left.length + 1 + right.length)) "nan",
    after.map (·.rightpad headers.length "nan"), List.length_map _, ?_, ?_⟩
  · rw [List.map_append, List.map_cons, rightpad_append_cons]
  · rw [result_read_of_textRecords source hrecords', result_fillRows_of_fits source hfits']
    simp [Except.map, setCell, List.modify_eq_set_getElem?]

end Table

/-! ## A byte of a token -/

/-- A byte of a file that belongs to a token, with what stands around it. -/
structure TokenByte where
  /-- The lines before the line of the byte, with their ends. -/
  linesBefore : Bytes
  /-- What stands before the byte in its line. -/
  lineBefore : Bytes
  byte : UInt8
  /-- What stands behind the byte in the file. -/
  behind : Bytes
  lines_end : linesBefore = [] ∨ linesBefore.getLast? = some 0x0A
  no_feed : 0x0A ∉ lineBefore
  not_blank : Text.isBlank (Char.ofNat byte.toNat) = false

namespace TokenByte

open Utf8 (asciiText)

/-- The file with another byte in the place. -/
def contentWith (place : TokenByte) (b : UInt8) : Bytes :=
  place.linesBefore ++ (place.lineBefore ++ b :: place.behind)

def content (place : TokenByte) : Bytes := place.contentWith place.byte

/-- The number of records before the line of the byte.  Rows are counted from one, as the header
is a record too. -/
def row (place : TokenByte) : ℕ := (wordRecords (asciiText place.linesBefore)).length

/-- The number of tokens in the line of the byte that end before its own. -/
def column (place : TokenByte) : ℕ :=
  (Text.words (asciiText (place.lineBefore ++ [place.byte]))).length - 1

theorem exists_split_at_line (front : Bytes) :
    ∃ linesBefore lineBefore : Bytes, front = linesBefore ++ lineBefore ∧
      (linesBefore = [] ∨ linesBefore.getLast? = some 0x0A) ∧ 0x0A ∉ lineBefore := by
  induction front with
  | nil => exact ⟨[], [], rfl, .inl rfl, by simp⟩
  | cons a front ih =>
      obtain ⟨linesBefore, lineBefore, rfl, hends, hfeed⟩ := ih
      rcases hends with rfl | hlast
      · by_cases ha : a = 0x0A
        · exact ⟨[a], lineBefore, rfl, .inr (by rw [ha]; rfl), hfeed⟩
        · exact ⟨[], a :: lineBefore, rfl, .inl rfl, by simp [hfeed, Ne.symm ha]⟩
      · refine ⟨a :: linesBefore, lineBefore, rfl, .inr ?_, hfeed⟩
        simp [List.getLast?_cons, hlast]

/-- Every byte that is not a blank has its place. -/
theorem exists_place (front : Bytes) {a : UInt8} (ha : Text.isBlank (Char.ofNat a.toNat) = false)
    (back : Bytes) :
    ∃ place : TokenByte, place.content = front ++ a :: back ∧ place.byte = a ∧
      place.linesBefore ++ place.lineBefore = front := by
  obtain ⟨linesBefore, lineBefore, rfl, hends, hfeed⟩ := exists_split_at_line front
  exact ⟨⟨linesBefore, lineBefore, a, back, hends, hfeed, ha⟩, (List.append_assoc ..).symm, rfl,
    rfl⟩

variable (place : TokenByte)

theorem ascii_parts (hascii : ∀ a ∈ place.content, a < 0x80) :
    (∀ a ∈ place.linesBefore, a < 0x80) ∧ (∀ a ∈ place.lineBefore, a < 0x80) ∧
      place.byte < 0x80 ∧ ∀ a ∈ place.behind, a < 0x80 := by
  simpa only [content, contentWith, List.forall_mem_append, List.forall_mem_cons] using hascii

theorem feed_not_mem : '\n' ∉ asciiText place.lineBefore := by
  intro hmem
  obtain ⟨a, ha, hfeed⟩ := List.mem_map.mp hmem
  have hcode : a.toNat = 10 := by
    rw [← Utf8.toNat_ofNat_toNat, hfeed]
    rfl
  obtain rfl : a = 0x0A := UInt8.toNat_inj.mp hcode
  exact place.no_feed ha

theorem asciiText_linesBefore :
    asciiText place.linesBefore = [] ∨ (asciiText place.linesBefore).getLast? = some '\n' := by
  rcases place.lines_end with hnil | hlast
  · exact .inl (by rw [hnil]; rfl)
  · exact .inr (by rw [asciiText, List.getLast?_map, hlast]; rfl)

/-- The records of the file, with any character that is not blank in the place of the byte. -/
theorem exists_textRecords (hascii : ∀ a ∈ place.content, a < 0x80) (hrow : 0 < place.row) :
    ∃ headers before left front back right after, before.length + 1 = place.row ∧
      left.length = place.column ∧
      ∀ {c : Char}, Text.isBlank c = false → c ≠ byteOrderMark →
        textRecords (asciiText place.linesBefore ++
            (asciiText place.lineBefore ++ c :: asciiText place.behind)) =
          headers :: (before ++
            (left ++ String.ofList (front ++ c :: back) :: right) :: after) := by
  obtain ⟨before, front, back, after, later, haround⟩ := exists_wordRecords_around
    place.asciiText_linesBefore place.feed_not_mem (asciiText place.behind)
  obtain ⟨header, rows, hrecords⟩ :=
    List.exists_cons_of_ne_nil (List.ne_nil_of_length_pos hrow)
  have hcolumn : before.length = place.column := by
    have hlength := (haround place.not_blank).2
    rw [column, asciiText, List.map_append, List.map_singleton]
    exact (Nat.sub_eq_of_eq_add hlength).symm
  refine ⟨header.map String.ofList, rows.map (·.map String.ofList), before.map String.ofList,
    front, back, after.map String.ofList, later.map (·.map String.ofList), ?_, ?_, ?_⟩
  · rw [List.length_map, row, hrecords, List.length_cons]
  · rw [List.length_map, hcolumn]
  · intro c hc hmark
    obtain ⟨hbefore, hline, _, hbehind⟩ := place.ascii_parts hascii
    have hplain : byteOrderMark ∉ asciiText place.linesBefore ++
        (asciiText place.lineBefore ++ c :: asciiText place.behind) := by
      simp [Utf8.byteOrderMark_not_mem hbefore, Utf8.byteOrderMark_not_mem hline,
        Utf8.byteOrderMark_not_mem hbehind, Ne.symm hmark]
    rw [textRecords_of_not_mem hplain, (haround hc).1, hrecords]
    simp

end TokenByte

/-! ## A byte that encodes nothing -/

theorem observe_extract {π : Type} {answers : Answers π} {job : ChartJob} {content : Bytes}
    (hread : answers.read job.input = .ok content) :
    (observe (answers.backend.extract job)).1 =
      (Table.read job.input (Utf8.decodeLossy content)).result := by
  have hperforms : Performs (answers.backend.extract job) [.read job.input]
      ((answers.read job.input).bind fun bytes =>
        (Table.read job.input (Utf8.decodeLossy bytes)).result) :=
    performs_iff_yields.mpr fun _ => yields_extract rfl
  rw [hperforms.observe_eq, hread]
  rfl

namespace TokenByte

variable {place : TokenByte}

theorem decodeLossy_content (hascii : ∀ a ∈ place.content, a < 0x80) :
    Utf8.decodeLossy place.content = Utf8.asciiText place.linesBefore ++
      (Utf8.asciiText place.lineBefore ++
        Char.ofNat place.byte.toNat :: Utf8.asciiText place.behind) := by
  rw [Utf8.decodeLossy_of_ascii hascii]
  simp [content, contentWith, Utf8.asciiText]

theorem decodeLossy_contentWith (hascii : ∀ a ∈ place.content, a < 0x80) {b : UInt8}
    (hb : 0x80 ≤ b) :
    Utf8.decodeLossy (place.contentWith b) = Utf8.asciiText place.linesBefore ++
      (Utf8.asciiText place.lineBefore ++ '\uFFFD' :: Utf8.asciiText place.behind) := by
  obtain ⟨hbefore, hline, _, hbehind⟩ := place.ascii_parts hascii
  have hnext : ∀ a ∈ place.behind.head?, a < 0x80 :=
    fun a ha => hbehind a (List.mem_of_mem_head? ha)
  rw [contentWith, Utf8.decodeLossy_append_of_ascii hbefore,
    Utf8.decodeLossy_append_of_ascii hline, Utf8.decodeLossy_cons_of_lone hb hnext,
    Utf8.decodeLossy_of_ascii hbehind]

end TokenByte

/-- Where a byte of a token in a row of data is replaced by one that encodes nothing, the table is
read as before but for the cell of that token, which holds the replacement character.  The column
that shows the cell fails at its row, unless it failed at an earlier one before, and the others
read as before. -/
theorem extract_of_broken_byte {π : Type} {place : TokenByte} {b : UInt8} {job : ChartJob}
    {answers broken : Answers π} {table : Table} (hascii : ∀ a ∈ place.content, a < 0x80)
    (hrow : 0 < place.row) (hb : 0x80 ≤ b) (hread : answers.read job.input = .ok place.content)
    (hbroken : broken.read job.input = .ok (place.contentWith b))
    (htable : (observe (answers.backend.extract job)).1 = .ok table) :
    ∃ (front back : List Char) (cell : String) (damaged : Table),
      table.cell? place.row place.column =
        some (String.ofList (front ++ Char.ofNat place.byte.toNat :: back)) ∧
      cell = String.ofList (front ++ '\uFFFD' :: back) ∧
      damaged = table.setCell place.row place.column cell ∧
      damaged.headers = table.headers ∧ damaged.size = table.size ∧
      (observe (broken.backend.extract job)).1 = .ok damaged ∧
      (∀ name, table.IsColumn name place.column →
        damaged.column name = .error (.invalidNumber job.input name place.row cell) ∨
        ∃ earlier < place.row, ∃ value,
          table.column name = .error (.invalidNumber job.input name earlier value) ∧
          damaged.column name = table.column name) ∧
      ∀ name, ¬ table.IsColumn name place.column → damaged.column name = table.column name := by
  obtain ⟨headers, before, left, front, back, right, after, hbefore, hleft, hrecords⟩ :=
    place.exists_textRecords hascii hrow
  have hmark : Char.ofNat place.byte.toNat ≠ byteOrderMark := by
    have hbyte : ∀ a ∈ [place.byte], a < 0x80 :=
      List.forall_mem_singleton.mpr (place.ascii_parts hascii).2.2.1
    have hnot := Utf8.byteOrderMark_not_mem hbyte
    exact fun heq => hnot (List.mem_singleton.mpr heq.symm)
  have hwhole := hrecords place.not_blank hmark
  have hreplaced := hrecords (c := '\uFFFD') rfl (by decide)
  rw [observe_extract hread, TokenByte.decodeLossy_content hascii] at htable
  obtain ⟨before', right', after', hlength, hrows, hdamaged⟩ :=
    Table.read_of_other_word hwhole hreplaced htable
  have hsource : table.source = job.input := by
    obtain ⟨_, rfl⟩ := Table.rows_of_read hwhole htable
    rfl
  have hcell : Binary64.ofLiteral? (String.ofList (front ++ '\uFFFD' :: back)).toList = none := by
    rw [String.toList_ofList]
    exact Binary64.ofLiteral?_eq_none_of_mem (by simp)
  rw [← hlength] at hbefore hdamaged
  rw [← hbefore, ← hleft, ← hsource]
  refine ⟨front, back, _, _, Table.cell?_of_rows hrows, rfl, rfl, rfl, ?_, ?_, ?_, ?_⟩
  · simp [Table.size, Table.setCell]
  · rw [observe_extract hbroken, TokenByte.decodeLossy_contentWith hascii hb, hdamaged]
  · intro name hcolumn
    exact Table.column_setCell_of_isColumn hrows hcolumn hcell
  · intro name hcolumn
    exact Table.column_setCell_of_not_isColumn hcolumn

/-- A storage in which every input holds the same bytes. -/
def Answers.holding (content : Bytes) : Answers String where
  read _ := .ok content
  outputPath output := .ok output
  render _ _ := pure ()

/-- The last digit of a cell in the second row. -/
def TokenByte.lastOfFifty : TokenByte where
  linesBefore := Utf8.encode "x_0 y_0 x_1\r\n1 20 3\n"
  lineBefore := Utf8.encode " 4\t5"
  byte := 0x30
  behind := Utf8.encode "  6\n\n7\n"
  lines_end := .inr (by decide +kernel)
  no_feed := by decide +kernel
  not_blank := rfl

/-- A byte that would be a blank as a character of its own splits no token. -/
theorem extract_of_broken_byte_noBreakSpace :
    let place := TokenByte.lastOfFifty
    let table : Table := ⟨"rhm-insert.txt", ["x_0", "y_0", "x_1"],
      [["1", "20", "3"], ["4", "50", "6"], ["7", "nan", "nan"]]⟩
    place.row = 2 ∧ place.column = 1 ∧
    (observe ((Answers.holding place.content).backend.extract .insert)).1 = .ok table ∧
    ∃ cell damaged,
      (observe ((Answers.holding (place.contentWith 0xA0)).backend.extract .insert)).1 =
        .ok damaged ∧
      damaged = table.setCell 2 1 cell ∧
      (∀ xs, damaged.column "y_0" ≠ .ok xs) ∧ damaged.column "x_1" = table.column "x_1" := by
  intro place table
  have hrow : place.row = 2 := by decide +kernel
  have hcolumn : place.column = 1 := by decide +kernel
  have htable : (observe ((Answers.holding place.content).backend.extract .insert)).1 =
      .ok table := by
    rw [observe_extract rfl]
    decide +kernel
  have hascii : ∀ a ∈ place.content, a < 0x80 := by decide +kernel
  have hbroken : (Answers.holding (place.contentWith 0xA0)).read ChartJob.insert.input =
      .ok (place.contentWith 0xA0) := rfl
  obtain ⟨_, _, cell, damaged, _, _, hdamaged, _, _, hextract, hown, hothers⟩ :=
    extract_of_broken_byte hascii (by rw [hrow]; decide) (by decide) rfl hbroken htable
  rw [hrow, hcolumn] at hdamaged
  rw [hrow, hcolumn] at hown
  rw [hcolumn] at hothers
  have hshown : table.IsColumn "y_0" 1 := ⟨rfl, by decide⟩
  have hother : ¬ table.IsColumn "x_1" 1 := fun hcolumn => absurd hcolumn.1 (by decide)
  refine ⟨hrow, hcolumn, htable, cell, damaged, hextract, hdamaged, ?_, hothers "x_1" hother⟩
  intro xs hxs
  rcases hown "y_0" hshown with hfails | ⟨_, _, _, hfails, hsame⟩
  · rw [hfails] at hxs
    contradiction
  · rw [hsame, hfails] at hxs
    contradiction

end ThroughputPlot
