import ThroughputPlot.Proofs.Numerals
import ThroughputPlot.Proofs.ReferenceValues
import ThroughputPlot.Proofs.WrittenStrings

/-!
# Written values and line ends

A value is written on one line, and behind it the line ends with spaces and a comment, if there are
any.  A string ends at its last quote; a number or a truth value ends before the spaces, because
only a line end or a comment comes behind them.
-/

namespace ThroughputPlot.Toml

/-! ## Line ends -/

inductive LineEnd : List Char → Prop
  | feed : LineEnd ['\n']
  | comment {text : List Char} (h : text.all isAllowed = true) :
      LineEnd ('#' :: (text ++ ['\n']))
  | space {c : Char} {gap : List Char} (hc : isSpace c = true) (h : LineEnd gap) :
      LineEnd (c :: gap)

/-- A line end, and perhaps further lines that hold nothing but a comment. -/
inductive LineBreak : List Char → Prop
  | last {gap : List Char} (h : LineEnd gap) : LineBreak gap
  | more {gap gaps : List Char} (h : LineEnd gap) (hmore : LineBreak gaps) :
      LineBreak (gap ++ gaps)

theorem skipLines_comment_append {text : List Char} (h : text.all isAllowed = true)
    (rest : List Char) : skipLines true (text ++ '\n' :: rest) = skipLines false rest := by
  induction text with
  | nil => simp [skipLines]
  | cons c text ih =>
      rw [List.all_cons, Bool.and_eq_true] at h
      obtain ⟨hc, htext⟩ := h
      rw [List.cons_append, skipLines_comment hc, ih htext]

section
variable {gap : List Char} (rest : List Char)

theorem LineEnd.skipLines_eq (h : LineEnd gap) :
    skipLines false (gap ++ rest) = skipLines false rest := by
  induction h with
  | feed => simp [skipLines]
  | @comment text h =>
      rw [← skipLines_comment_append h rest]
      simp [skipLines, isSpace]
  | space hc _ ih => rw [List.cons_append, skipLines_space hc, ih]

/-- Behind a comment the empty lines are skipped at once. -/
theorem LineEnd.nextLine_eq (h : LineEnd gap) :
    nextLine (gap ++ rest) = some rest ∨ nextLine (gap ++ rest) = skipLines false rest := by
  induction h with
  | feed => exact .inl rfl
  | @comment text h =>
      rw [← skipLines_comment_append h rest]
      simp [nextLine, skipSpace, isSpace]
  | space hc _ ih =>
      have hskip (text : List Char) : skipSpace (_ :: text) = skipSpace text :=
        List.dropWhile_cons_of_pos hc
      rwa [List.cons_append, nextLine, hskip]

end

theorem LineBreak.skipLines_eq {gap : List Char} (h : LineBreak gap) (rest : List Char) :
    skipLines false (gap ++ rest) = skipLines false rest := by
  induction h with
  | last h => exact h.skipLines_eq rest
  | more h _ ih => rw [List.append_assoc, h.skipLines_eq, ih]

/-- The next statement begins behind the line break. -/
theorem LineBreak.exists_nextLine {gap rest : List Char} (h : LineBreak gap)
    (hrest : skipLines false rest = some rest) :
    ∃ next, nextLine (gap ++ rest) = some next ∧ skipLines false next = some rest := by
  cases h with
  | last h =>
      have hnext := h.nextLine_eq rest
      rw [hrest, or_self] at hnext
      exact ⟨rest, hnext, hrest⟩
  | @more gap gaps h hmore =>
      -- What is left begins with the other line ends or with the statement.
      have hskip : skipLines false (gaps ++ rest) = some rest :=
        (hmore.skipLines_eq rest).trans hrest
      rw [List.append_assoc]
      rcases h.nextLine_eq (gaps ++ rest) with hnext | hnext
      · exact ⟨_, hnext, hskip⟩
      · exact ⟨rest, hnext.trans hskip, hrest⟩

/-! ## Where a plain scalar ends -/

theorem takeScalar_append {written rest : List Char}
    (hwritten : ∀ c ∈ written, isScalarChar c = true) (hrest : takeScalar rest = ([], rest)) :
    takeScalar (written ++ rest) = (written, rest) := by
  induction written with
  | nil => exact hrest
  | cons c written ih =>
      obtain ⟨hc, hmore⟩ := List.forall_mem_cons.mp hwritten
      rw [List.cons_append, takeScalar, if_pos (by simp [hc]), ih hmore]

theorem LineEnd.continuesScalar_eq {gap : List Char} (h : LineEnd gap) (rest : List Char) :
    continuesScalar (gap ++ rest) = false := by
  induction h with
  | feed => rfl
  | comment => rfl
  | space hc _ ih =>
      rw [List.cons_append, continuesScalar, List.dropWhile_cons_of_pos hc]
      exact ih

theorem LineEnd.takeScalar_eq {gap : List Char} (h : LineEnd gap) (rest : List Char) :
    takeScalar (gap ++ rest) = ([], gap ++ rest) := by
  cases h with
  | feed => rfl
  | comment => rfl
  | @space c gap hc h =>
      have hscalar : isScalarChar c = false := by
        rcases Bool.or_eq_true_iff.mp hc with hspace | htab
        · obtain rfl := of_decide_eq_true hspace
          rfl
        · obtain rfl := of_decide_eq_true htab
          rfl
      rw [List.cons_append, takeScalar, hscalar, h.continuesScalar_eq rest]
      simp

theorem LineEnd.head?_ne {gap : List Char} (h : LineEnd gap) (rest : List Char) :
    (gap ++ rest).head? ≠ some '"' := by
  cases h with
  | feed | comment => simp
  | space hc =>
      rintro heq
      obtain rfl := Option.some.inj heq
      contradiction

theorem LineBreak.exists_lineEnd {gap : List Char} (h : LineBreak gap) (rest : List Char) :
    ∃ front more, LineEnd front ∧ gap ++ rest = front ++ more := by
  cases h with
  | last h => exact ⟨gap, rest, h, rfl⟩
  | more h => exact ⟨_, _, h, List.append_assoc ..⟩

/-! ## Numbers -/

theorem decimalInteger?_toDigits (n : ℕ) :
    decimalInteger? (Nat.toDigits 10 n) = some (some (n : Int)) := by
  have hdigits := Text.isNumeral_toDigits n
  have hsign := Text.takeSign_of_isDigit hdigits.isDigit
  have hrest : (Nat.toDigits 10 n).dropWhile Char.isDigit = [] :=
    List.dropWhile_eq_nil_iff.mpr hdigits.isDigit
  have hhead : (Nat.toDigits 10 n).head?.any Char.isDigit = true := by
    obtain ⟨c, digits, heq⟩ := List.exists_cons_of_ne_nil hdigits.ne_nil
    have hc := hdigits.isDigit c (heq ▸ List.mem_cons_self)
    rw [heq]
    exact hc
  have hzero : (Nat.toDigits 10 n).head? ≠ some '0' ∨ (Nat.toDigits 10 n).length = 1 := by
    rcases Nat.eq_zero_or_pos n with rfl | hn
    · exact .inr rfl
    · exact .inl (Text.head?_toDigits_ne hn)
  have hgrouped : (Nat.toDigits 10 n).filter (· ≠ '_') = Nat.toDigits 10 n := by
    refine List.filter_eq_self.mpr fun c hc => decide_eq_true ?_
    exact Text.ne_of_class (hdigits.isDigit c hc) rfl
  have hvalue : signedNumber? (Nat.toDigits 10 n) = some (n : Int) := by
    rw [signedNumber?, hsign]
    dsimp only
    rw [Text.natural?_eq_some_iff.mpr hdigits]
    rfl
  unfold decimalInteger?
  rw [hsign]
  dsimp only
  rw [hrest, hhead, hgrouped, hvalue]
  simp [hzero]

theorem scalar?_toDigits (n : ℕ) : scalar? (Nat.toDigits 10 n) = some (.integer (some n)) := by
  have hdigits := (Text.isNumeral_toDigits n).isDigit
  have hnumber := decimalInteger?_toDigits n
  generalize Nat.toDigits 10 n = digits at hdigits hnumber ⊢
  have hword {word : List Char} {c : Char} (hc : c ∈ word) (hletter : c.isDigit = false) :
      digits ≠ word := by
    rintro rfl
    exact absurd (hdigits c hc) (by simp [hletter])
  have hinteger : integer? digits = some (some (n : Int)) := by
    have hmark {mark : Char} {rest : List Char} (hletter : mark.isDigit = false) :
        digits ≠ '0' :: mark :: rest :=
      hword (List.mem_cons_of_mem _ List.mem_cons_self) hletter
    unfold integer?
    split
    next => exact absurd rfl (hmark rfl)
    next => exact absurd rfl (hmark rfl)
    next => exact absurd rfl (hmark rfl)
    next => exact hnumber
  have htrue : digits ≠ "true".toList := @hword _ 't' (by decide) rfl
  have hfalse : digits ≠ "false".toList := @hword _ 'f' (by decide) rfl
  rw [scalar?, if_neg htrue, if_neg hfalse, hinteger]

/-! ## Values -/

/-- A spelling of a value: a string between double quotes, a size in decimal or a truth value. -/
inductive WrittenValue : Toml → List Char → Prop
  | string {text : String} {written : List Char} (h : WrittenText text.toList written) :
      WrittenValue (.string text) ('"' :: (written ++ ['"']))
  | size (n : ℕ) : WrittenValue (.integer (some n)) (Nat.toDigits 10 n)
  | boolean (value : Bool) :
      WrittenValue (.boolean value) (if value then "true".toList else "false".toList)

theorem isScalarChar_of_isAlphanum {c : Char} (hc : c.isAlphanum = true) :
    isScalarChar c = true := by
  by_contra hmark
  simp only [isScalarChar, Bool.not_eq_true', Bool.not_eq_false, Bool.or_eq_true,
    decide_eq_true_eq, or_assoc] at hmark
  rcases hmark with rfl | rfl | rfl | rfl | rfl | rfl | rfl | rfl | rfl | rfl | rfl
  all_goals contradiction

theorem readValue_word {word rest : List Char} {value : Toml} (hne : word ≠ [])
    (hword : word.all Char.isAlphanum = true) (hscalar : scalar? word = some value)
    (hrest : takeScalar rest = ([], rest)) (depth : ℕ) :
    readValue depth (word ++ rest) = some (value, rest) := by
  rw [List.all_eq_true] at hword
  have htaken : takeScalar (word ++ rest) = (word, rest) :=
    takeScalar_append (fun c hc => isScalarChar_of_isAlphanum (hword c hc)) hrest
  rw [readValue_scalar, readScalar, htaken]
  · dsimp only
    rw [hscalar]
    rfl
  · intro c hc
    obtain ⟨d, more, rfl⟩ := List.exists_cons_of_ne_nil hne
    obtain rfl := Option.some.inj hc
    have hd := hword d List.mem_cons_self
    exact ⟨Text.ne_of_class hd rfl, Text.ne_of_class hd rfl, Text.ne_of_class hd rfl,
      Text.ne_of_class hd rfl⟩

/-- A value is read up to the line break behind it. -/
theorem WrittenValue.readValue_eq {value : Toml} {written gap : List Char}
    (h : WrittenValue value written) (hgap : LineBreak gap) (rest : List Char) (depth : ℕ) :
    readValue depth (written ++ (gap ++ rest)) = some (value, gap ++ rest) := by
  obtain ⟨front, more, hend, heq⟩ := hgap.exists_lineEnd rest
  rw [heq]
  have hrest := hend.takeScalar_eq more
  cases h with
  | @string text written h =>
      have hquoted := h.readQuoted_eq (hend.head?_ne more)
      have htext : '"' :: (written ++ ['"']) ++ (front ++ more) =
        '"' :: (written ++ '"' :: (front ++ more)) := by simp
      rw [htext, readValue_of_readQuoted hquoted, String.ofList_toList]
  | size n =>
      have hdigits := Text.isNumeral_toDigits n
      have hword : (Nat.toDigits 10 n).all Char.isAlphanum = true := by
        rw [List.all_eq_true]
        intro c hc
        rw [Char.isAlphanum, hdigits.isDigit c hc, Bool.or_true]
      exact readValue_word hdigits.ne_nil hword (scalar?_toDigits n) hrest depth
  | boolean value =>
      cases value with
      | false => exact readValue_word (by decide) (by decide) rfl hrest depth
      | true => exact readValue_word (by decide) (by decide) rfl hrest depth

end ThroughputPlot.Toml
