import ThroughputPlot.Toml.Document
import Mathlib.Data.List.TakeWhile
import Mathlib.Tactic

/-!
# Reading in front of a quote

A reader looks beyond what it takes.  A scalar goes on if another word follows its spaces, and a
string between three quotes ends with the last of up to five, so that what stands behind may change
what is read.  But no reader looks beyond a double quote that it leaves.  What it has read in front
of a quote it reads there again, whatever comes behind the quote.
-/

namespace ThroughputPlot.Toml

open Text (Reader ListForm readItems readList)

/-! ## Texts that are the same up to a quote -/

inductive Alike : List Char → List Char → Prop
  | quote (rest rest' : List Char) : Alike ('"' :: rest) ('"' :: rest')
  | cons (c : Char) {rest rest' : List Char} (hrest : Alike rest rest') :
      Alike (c :: rest) (c :: rest')

namespace Alike

variable {text text' : List Char}

theorem symm (halike : Alike text text') : Alike text' text := by
  induction halike with
  | quote rest rest' => exact .quote rest' rest
  | cons c _ ih => exact .cons c ih

theorem append (halike : Alike text text') (used : List Char) :
    Alike (used ++ text) (used ++ text') := by
  induction used with
  | nil => exact halike
  | cons c used ih => exact .cons c ih

theorem exists_cons (halike : Alike text text') :
    ∃ c rest rest', text = c :: rest ∧ text' = c :: rest' ∧ (c ≠ '"' → Alike rest rest') := by
  cases halike with
  | quote rest rest' => exact ⟨'"', rest, rest', rfl, rfl, fun hne => absurd rfl hne⟩
  | cons c hrest => exact ⟨c, _, _, rfl, rfl, fun _ => hrest⟩

theorem head?_eq (halike : Alike text text') : text'.head? = text.head? := by
  cases halike <;> rfl

/-- The same text begins both, if its only quote is at its end. -/
theorem exists_append {front more' : List Char} (halike : Alike text text')
    (hfront : '"' ∉ front.dropLast) (htext' : text' = front ++ more') :
    ∃ more, text = front ++ more := by
  induction front generalizing text text' with
  | nil => exact ⟨text, rfl⟩
  | cons c front ih =>
      obtain ⟨d, rest, rest', rfl, rfl, hrest⟩ := halike.exists_cons
      obtain ⟨rfl, rfl⟩ := List.cons.inj htext'
      cases front with
      | nil => exact ⟨rest, rfl⟩
      | cons e front =>
          rw [List.dropLast_cons_cons, List.mem_cons, not_or] at hfront
          obtain ⟨more, rfl⟩ := ih (hrest (Ne.symm hfront.1)) hfront.2 rfl
          exact ⟨more, rfl⟩

theorem ne_append (halike : Alike text text') (front : List Char) (hfront : '"' ∉ front.dropLast)
    (hne : ∀ more, text ≠ front ++ more) (more : List Char) : text' ≠ front ++ more := by
  intro htext'
  obtain ⟨more', htext⟩ := halike.exists_append hfront htext'
  exact hne more' htext

theorem dropWhile {p : Char → Bool} (hquote : p '"' = false) (halike : Alike text text') :
    Alike (text.dropWhile p) (text'.dropWhile p) := by
  induction halike with
  | quote rest rest' => simpa [hquote] using Alike.quote rest rest'
  | cons c hrest ih =>
      by_cases hc : p c = true
      · simpa [hc] using ih
      · simpa [hc] using Alike.cons c hrest

end Alike

/-! ## Steady readers -/

variable {α β : Type}

/-- The reading of a text comes to what is left of it, and so it does whatever comes behind the
first quote that is left. -/
def SteadyAt (read : List Char → Option β) (result : List Char → β) (text left : List Char) :
    Prop :=
  ∃ used, text = used ++ left ∧
    ∀ left', Alike left left' → read (used ++ left') = some (result left')

/-- More text in front, if taking it does not depend on what comes behind a quote either. -/
theorem SteadyAt.step {read : List Char → Option α} {read' : List Char → Option β}
    {result : List Char → α} {result' : List Char → β} {rest left : List Char}
    (hsteady : SteadyAt read result rest left) (taken : List Char)
    (hstep : ∀ used left', rest = used ++ left → Alike left left' →
      read (used ++ left') = some (result left') →
      read' (taken ++ (used ++ left')) = some (result' left')) :
    SteadyAt read' result' (taken ++ rest) left := by
  obtain ⟨used, rfl, hused⟩ := hsteady
  refine ⟨taken ++ used, (List.append_assoc ..).symm, fun left' halike => ?_⟩
  rw [List.append_assoc]
  exact hstep used left' rfl halike (hused left' halike)

theorem steadyAt_of_taken {read : List Char → Option β} {result : List Char → β}
    {left : List Char} (taken : List Char)
    (htaken : ∀ left', Alike left left' → read (taken ++ left') = some (result left')) :
    SteadyAt read result (taken ++ left) left :=
  ⟨taken, rfl, htaken⟩

def Steady (read : Reader α) : Prop :=
  ∀ text a left, read text = some (a, left) → SteadyAt read (fun left' => (a, left')) text left

def SteadyGap (skip : List Char → Option (List Char)) : Prop :=
  ∀ text left, skip text = some left → SteadyAt skip (fun left' => left') text left

/-! ## Gaps -/

theorem steadyGap_skipSpace : SteadyGap (some ∘ skipSpace) := by
  intro text left htext
  obtain rfl : skipSpace text = left := Option.some.inj htext
  refine ⟨text.takeWhile isSpace, List.takeWhile_append_dropWhile.symm, fun left' halike => ?_⟩
  have hspaces : ∀ c ∈ text.takeWhile isSpace, isSpace c = true :=
    fun c hc => List.mem_takeWhile_imp hc
  obtain ⟨c, rest, rest', htext', rfl, -⟩ := halike.exists_cons
  have hstop := List.head?_dropWhile_not isSpace text
  rw [skipSpace] at htext'
  rw [htext'] at hstop
  have hc : isSpace c = false := by simpa using hstop
  rw [Function.comp_apply, skipSpace, List.dropWhile_append_of_pos hspaces]
  simp [hc]

theorem skipLines_comment {c : Char} (hc : isAllowed c = true) (rest : List Char) :
    skipLines true (c :: rest) = skipLines true rest := by
  rw [skipLines]
  · simp [hc]
  · rintro rfl
    simp [isAllowed] at hc
  · rintro _ rfl
    simp [isAllowed] at hc

theorem skipLines_space {c : Char} (hc : isSpace c = true) (rest : List Char) :
    skipLines false (c :: rest) = skipLines false rest := by
  rw [skipLines]
  · simp [hc]
  · rintro rfl
    simp [isSpace] at hc
  · rintro _ rfl
    simp [isSpace] at hc

theorem steadyGap_skipLines (isComment : Bool) : SteadyGap (skipLines isComment) := by
  intro text left htext
  fun_induction skipLines isComment text with
  | case1 =>
      obtain rfl := Option.some.inj htext
      exact ⟨[], rfl, nofun⟩
  | case2 _ _ ih =>
      exact (ih htext).step ['\n'] fun _ _ _ _ hrest => by
        simpa [skipLines] using hrest
  | case3 _ _ ih =>
      exact (ih htext).step ['\r', '\n'] fun _ _ _ _ hrest => by
        simpa [skipLines] using hrest
  | case4 c _ _ _ hc ih =>
      exact (ih htext).step [c] fun _ _ _ _ hrest => (skipLines_comment hc _).trans hrest
  | case5 => contradiction
  | case6 c _ _ _ hc ih =>
      exact (ih htext).step [c] fun _ _ _ _ hrest => (skipLines_space hc _).trans hrest
  | case7 _ _ _ _ ih =>
      exact (ih htext).step ['#'] fun _ _ _ _ hrest => by
        simpa [skipLines, isSpace] using hrest
  | case8 c rest hnewline hreturn hspace hcomment =>
      obtain rfl := Option.some.inj htext
      refine steadyAt_of_taken [] fun left' halike => ?_
      obtain ⟨_, _, rest', hcons, rfl, hrest⟩ := halike.exists_cons
      obtain ⟨rfl, rfl⟩ := List.cons.inj hcons
      rw [List.nil_append, skipLines]
      · simp [hspace, hcomment]
      · exact hnewline
      · rintro more rfl rfl
        have hhead := (hrest (by decide)).head?_eq
        cases rest with
        | nil => contradiction
        | cons d rest =>
            obtain rfl : '\n' = d := by simpa using hhead
            exact hreturn rest rfl rfl

/-! ## Strings -/

theorem consChar_eq_some_iff {c : Option Char} {rest : Option (List Char × List Char)}
    {text left : List Char} :
    consChar c rest = some (text, left) ↔
      ∃ d inner, c = some d ∧ rest = some (inner, left) ∧ text = d :: inner := by
  cases c with
  | none => simp [consChar]
  | some d =>
      cases rest with
      | none => simp [consChar]
      | some found =>
          obtain ⟨inner, left'⟩ := found
          simp only [consChar, Option.some.injEq, Prod.mk.injEq]
          constructor
          · rintro ⟨rfl, rfl⟩
            exact ⟨d, inner, rfl, ⟨rfl, rfl⟩, rfl⟩
          · rintro ⟨_, _, rfl, ⟨rfl, rfl⟩, rfl⟩
            exact ⟨rfl, rfl⟩

/-- One more character of a string, written with the characters taken. -/
theorem SteadyAt.char {read read' : Reader (List Char)} {rest left text : List Char}
    {c : Option Char} (taken : List Char)
    (hsteady : ∀ inner, read rest = some (inner, left) →
      SteadyAt read (fun left' => (inner, left')) rest left)
    (htext : consChar c (read rest) = some (text, left))
    (hstep : ∀ used left' d, c = some d → rest = used ++ left → Alike left left' →
      read' (taken ++ (used ++ left')) = consChar c (read (used ++ left'))) :
    SteadyAt read' (fun left' => (text, left')) (taken ++ rest) left := by
  obtain ⟨d, inner, rfl, hrest, rfl⟩ := consChar_eq_some_iff.mp htext
  refine (hsteady inner hrest).step taken fun used left' hused halike hread => ?_
  rw [hstep used left' d rfl hused halike]
  exact consChar_eq_some_iff.mpr ⟨d, inner, rfl, hread, rfl⟩

theorem SteadyAt.lineEnd {read read' : Reader (List Char)} {rest left text : List Char}
    (hsteady : ∀ inner, read rest = some (inner, left) →
      SteadyAt read (fun left' => (inner, left')) rest left)
    (htext : consChar (some '\r') (consChar (some '\n') (read rest)) = some (text, left))
    (hstep : ∀ rest', read' ('\r' :: '\n' :: rest') =
      consChar (some '\r') (consChar (some '\n') (read rest'))) :
    SteadyAt read' (fun left' => (text, left')) ('\r' :: '\n' :: rest) left := by
  obtain ⟨c, _, hc, hline, rfl⟩ := consChar_eq_some_iff.mp htext
  obtain ⟨d, inner, hd, hrest, rfl⟩ := consChar_eq_some_iff.mp hline
  obtain rfl := Option.some.inj hc
  obtain rfl := Option.some.inj hd
  refine (hsteady inner hrest).step ['\r', '\n'] fun used left' _ _ hread => ?_
  have hstep' := hstep (used ++ left')
  rwa [hread] at hstep'

theorem steady_readLiteral : Steady readLiteral := by
  intro text content left htext
  fun_induction readLiteral text generalizing content with
  | case1 => contradiction
  | case2 rest =>
      obtain ⟨rfl, rfl⟩ := Prod.mk.inj (Option.some.inj htext)
      exact steadyAt_of_taken ['\''] fun _ _ => rfl
  | case3 c rest hquote hallowed ih =>
      refine SteadyAt.char [c] ih htext fun used left' _ _ _ _ => ?_
      rw [List.singleton_append, readLiteral, if_pos hallowed]
      exact hquote
  | case4 => contradiction

theorem readBasic_escape {c d : Char} (hc : shortEscape? c = some d) (rest : List Char) :
    readBasic ('\\' :: c :: rest) = consChar (shortEscape? c) (readBasic rest) := by
  rw [readBasic]
  · rintro _ _ _ rfl
    contradiction
  · rintro _ _ _ _ _ rfl
    contradiction
  · rintro _ _ _ _ _ _ _ _ _ rfl
    contradiction

theorem readBasic_cons {c : Char} (hquote : c ≠ '"') (hslash : c ≠ '\\')
    (hallowed : isAllowed c = true) (rest : List Char) :
    readBasic (c :: rest) = consChar (some c) (readBasic rest) := by
  rw [readBasic, if_pos hallowed]
  · exact hquote
  · exact fun _ _ _ hc => absurd hc hslash
  · exact fun _ _ _ _ _ hc => absurd hc hslash
  · exact fun _ _ _ _ _ _ _ _ _ hc => absurd hc hslash
  · exact fun _ _ hc => absurd hc hslash

theorem steady_readBasic : Steady readBasic := by
  intro text content left htext
  fun_induction readBasic text generalizing content with
  | case1 => contradiction
  | case2 rest =>
      obtain ⟨rfl, rfl⟩ := Prod.mk.inj (Option.some.inj htext)
      exact steadyAt_of_taken ['"'] fun _ _ => rfl
  | case3 a b rest ih => exact SteadyAt.char ['\\', 'x', a, b] ih htext fun _ _ _ _ _ _ => rfl
  | case4 a b c d rest ih =>
      exact SteadyAt.char ['\\', 'u', a, b, c, d] ih htext fun _ _ _ _ _ _ => rfl
  | case5 a b c d e f g h rest ih =>
      exact SteadyAt.char ['\\', 'U', a, b, c, d, e, f, g, h] ih htext fun _ _ _ _ _ _ => rfl
  | case6 c rest _ _ _ ih =>
      exact SteadyAt.char ['\\', c] ih htext fun _ _ _ hc _ _ => readBasic_escape hc _
  | case7 c rest hquote _ _ _ hescape hallowed ih =>
      have hslash : c ≠ '\\' := by
        rintro rfl
        cases rest with
        | nil => contradiction
        | cons d rest => exact hescape d rest rfl rfl
      exact SteadyAt.char [c] ih htext fun _ _ _ _ _ _ =>
        readBasic_cons hquote hslash hallowed _
  | case8 => contradiction

theorem readLongLiteral_cons {c : Char} {rest : List Char}
    (hquotes : ∀ more, c = '\'' → rest ≠ '\'' :: '\'' :: more) (hallowed : isAllowed c = true) :
    readLongLiteral (c :: rest) = consChar (some c) (readLongLiteral rest) := by
  rw [readLongLiteral, if_pos hallowed]
  · exact fun _ hc hrest => hquotes _ hc hrest
  · exact fun _ hc hrest => hquotes _ hc hrest
  · exact fun _ hc hrest => hquotes _ hc hrest
  · rintro rfl
    contradiction
  · rintro _ rfl
    contradiction

theorem steady_readLongLiteral : Steady readLongLiteral := by
  intro text content left htext
  fun_induction readLongLiteral text generalizing content with
  | case1 => contradiction
  | case2 rest =>
      obtain ⟨rfl, rfl⟩ := Prod.mk.inj (Option.some.inj htext)
      exact steadyAt_of_taken ['\'', '\'', '\'', '\'', '\''] fun _ _ => rfl
  | case3 rest hquote =>
      obtain ⟨rfl, rfl⟩ := Prod.mk.inj (Option.some.inj htext)
      refine steadyAt_of_taken ['\'', '\'', '\'', '\''] fun left' halike => ?_
      have hquote' := halike.ne_append ['\''] (by decide) hquote
      simp only [List.cons_append, List.nil_append]
      rw [readLongLiteral]
      exact hquote'
  | case4 rest hquotes hquote =>
      obtain ⟨rfl, rfl⟩ := Prod.mk.inj (Option.some.inj htext)
      refine steadyAt_of_taken ['\'', '\'', '\''] fun left' halike => ?_
      have hquotes' := halike.ne_append ['\'', '\''] (by decide) hquotes
      have hquote' := halike.ne_append ['\''] (by decide) hquote
      simp only [List.cons_append, List.nil_append]
      rw [readLongLiteral]
      · exact hquotes'
      · exact hquote'
  | case5 rest ih => exact SteadyAt.char ['\n'] ih htext fun _ _ _ _ _ _ => rfl
  | case6 rest ih => exact SteadyAt.lineEnd ih htext fun _ => rfl
  | case7 c rest _ _ hthree _ _ hallowed ih =>
      refine SteadyAt.char [c] ih htext fun used left' _ _ hused halike => ?_
      refine readLongLiteral_cons (fun more hc => ?_) hallowed
      rw [hused] at hthree
      exact (halike.append used).ne_append ['\'', '\''] (by decide) (hthree · hc) more
  | case8 => contradiction

/-- The closing quotes stand for nothing, and an escape for less than it is. -/
theorem length_le_of_readLongBasic {skipping : Bool} {text content left : List Char}
    (htext : readLongBasic skipping text = some (content, left)) :
    content.length + left.length + 3 ≤ text.length := by
  fun_induction readLongBasic skipping text generalizing content <;>
    simp_all [consChar_eq_some_iff] <;> grind

theorem endsLine_iff {text : List Char} :
    endsLine text = true ↔ (∃ more, text.dropWhile isSpace = ['\n'] ++ more) ∨
      ∃ more, text.dropWhile isSpace = ['\r', '\n'] ++ more := by
  unfold endsLine
  split <;> simp_all

theorem Alike.endsLine {text text' : List Char} (halike : Alike text text')
    (hends : endsLine text = true) : endsLine text' = true := by
  have hquote : isSpace '"' = false := by decide
  have hrest := (halike.dropWhile hquote).symm
  rcases endsLine_iff.mp hends with ⟨more, hmore⟩ | ⟨more, hmore⟩
  · exact endsLine_iff.mpr (.inl (hrest.exists_append (by decide) hmore))
  · exact endsLine_iff.mpr (.inr (hrest.exists_append (by decide) hmore))

theorem Alike.endsLine_eq {text text' : List Char} (halike : Alike text text') :
    Toml.endsLine text' = Toml.endsLine text :=
  Bool.eq_iff_iff.mpr ⟨halike.symm.endsLine, halike.endsLine⟩

theorem readLongBasic_continued {c : Char} {rest : List Char} (hends : endsLine (c :: rest) = true)
    (skipping : Bool) :
    readLongBasic skipping ('\\' :: c :: rest) = readLongBasic true (c :: rest) := by
  rw [readLongBasic, if_pos hends]
  · rintro _ _ _ rfl
    simp [endsLine, isSpace] at hends
  · rintro _ _ _ _ _ rfl
    simp [endsLine, isSpace] at hends
  · rintro _ _ _ _ _ _ _ _ _ rfl
    simp [endsLine, isSpace] at hends

theorem readLongBasic_escape {c d : Char} {rest : List Char} (hc : shortEscape? c = some d)
    (hends : endsLine (c :: rest) = false) (skipping : Bool) :
    readLongBasic skipping ('\\' :: c :: rest) =
      consChar (shortEscape? c) (readLongBasic false rest) := by
  rw [readLongBasic, hends]
  · rfl
  · rintro _ _ _ rfl
    contradiction
  · rintro _ _ _ _ _ rfl
    contradiction
  · rintro _ _ _ _ _ _ _ _ _ rfl
    contradiction

theorem readLongBasic_cons {c : Char} {rest : List Char} {skipping : Bool}
    (hquotes : ∀ more, c = '"' → rest ≠ '"' :: '"' :: more) (hslash : c ≠ '\\')
    (hspace : skipping = true → isSpace c = false) (hallowed : isAllowed c = true) :
    readLongBasic skipping (c :: rest) = consChar (some c) (readLongBasic false rest) := by
  have hnewline : c ≠ '\n' := by
    rintro rfl
    contradiction
  have hreturn : c ≠ '\r' := by
    rintro rfl
    contradiction
  rw [readLongBasic, if_pos hallowed]
  · exact fun _ hc hrest => hquotes _ hc hrest
  · exact fun _ hc hrest => hquotes _ hc hrest
  · exact fun _ hc hrest => hquotes _ hc hrest
  · exact hnewline
  · exact fun _ hc _ => hreturn hc
  · exact fun _ _ _ hc => absurd hc hslash
  · exact fun _ _ _ _ _ hc => absurd hc hslash
  · exact fun _ _ _ _ _ _ _ _ _ hc => absurd hc hslash
  · exact fun _ _ hc => absurd hc hslash
  · exact fun _ hc => hnewline hc
  · exact fun _ _ hc _ => hreturn hc
  · rintro hskip rfl
    have hspace' := hspace hskip
    contradiction
  · rintro hskip rfl
    have hspace' := hspace hskip
    contradiction

theorem steady_readLongBasic (skipping : Bool) : Steady (readLongBasic skipping) := by
  intro text content left htext
  fun_induction readLongBasic skipping text generalizing content with
  | case1 => contradiction
  | case2 _ rest =>
      obtain ⟨rfl, rfl⟩ := Prod.mk.inj (Option.some.inj htext)
      exact steadyAt_of_taken ['"', '"', '"', '"', '"'] fun _ _ => by simp [readLongBasic]
  | case3 _ rest hquote =>
      obtain ⟨rfl, rfl⟩ := Prod.mk.inj (Option.some.inj htext)
      refine steadyAt_of_taken ['"', '"', '"', '"'] fun left' halike => ?_
      have hquote' := halike.ne_append ['"'] (by decide) hquote
      simp only [List.cons_append, List.nil_append]
      rw [readLongBasic]
      exact hquote'
  | case4 _ rest hquotes hquote =>
      obtain ⟨rfl, rfl⟩ := Prod.mk.inj (Option.some.inj htext)
      refine steadyAt_of_taken ['"', '"', '"'] fun left' halike => ?_
      have hquote' := halike.ne_append ['"'] (by decide) hquote
      simp only [List.cons_append, List.nil_append]
      rw [readLongBasic]
      · exact fun more => hquote' ('"' :: more)
      · exact hquote'
  | case5 rest ih => exact (ih _ htext).step ['\n'] fun _ _ _ _ hrest => hrest
  | case6 rest ih => exact (ih _ htext).step ['\r', '\n'] fun _ _ _ _ hrest => hrest
  | case7 rest ih => exact (ih _ htext).step [' '] fun _ _ _ _ hrest => hrest
  | case8 rest ih => exact (ih _ htext).step ['\t'] fun _ _ _ _ hrest => hrest
  | case9 skipping rest hskip ih =>
      obtain rfl : skipping = false := by simpa using hskip
      exact SteadyAt.char ['\n'] ih htext fun _ _ _ _ _ _ => rfl
  | case10 skipping rest hskip ih =>
      obtain rfl : skipping = false := by simpa using hskip
      exact SteadyAt.lineEnd ih htext fun _ => rfl
  | case11 skipping a b rest ih =>
      exact SteadyAt.char ['\\', 'x', a, b] ih htext fun _ _ _ _ _ _ => by cases skipping <;> rfl
  | case12 skipping a b c d rest ih =>
      exact SteadyAt.char ['\\', 'u', a, b, c, d] ih htext fun _ _ _ _ _ _ => by
        cases skipping <;> rfl
  | case13 skipping a b c d e f g h rest ih =>
      exact SteadyAt.char ['\\', 'U', a, b, c, d, e, f, g, h] ih htext fun _ _ _ _ _ _ => by
        cases skipping <;> rfl
  | case14 skipping c rest _ _ _ hends ih =>
      refine (ih _ htext).step ['\\'] fun used left' hused halike hrest => ?_
      have halike' := halike.append used
      rw [← hused] at halike'
      have hends' := halike'.endsLine_eq.trans hends
      obtain ⟨_, _, rest', hcons, hrest', _⟩ := halike'.exists_cons
      obtain ⟨rfl, rfl⟩ := List.cons.inj hcons
      rw [hrest'] at hends' hrest ⊢
      exact (readLongBasic_continued hends' skipping).trans hrest
  | case15 skipping c rest _ _ _ hends ih =>
      refine SteadyAt.char ['\\', c] ih htext fun used left' d hc hused halike => ?_
      have halike' := (halike.append used).cons c
      rw [← hused] at halike'
      rw [Bool.not_eq_true] at hends
      exact readLongBasic_escape hc (halike'.endsLine_eq.trans hends) skipping
  | case16 skipping c rest _ _ hthree hline hreturn hspace htab _ _ _ _ _ hescape hallowed ih =>
      have hslash : c ≠ '\\' := by
        rintro rfl
        cases rest with
        | nil => cases skipping <;> contradiction
        | cons d rest => exact hescape d rest rfl rfl
      refine SteadyAt.char [c] ih htext fun used left' _ _ hused halike => ?_
      refine readLongBasic_cons (fun more' hc hmore => ?_) hslash (fun hskip => ?_) hallowed
      · obtain ⟨_, _, _, hread, _⟩ := consChar_eq_some_iff.mp htext
        have hlength := length_le_of_readLongBasic hread
        cases used with
        | nil =>
            simp only [hused, List.nil_append] at hlength
            omega
        | cons d used =>
            obtain ⟨rfl, hbehind⟩ := List.cons.inj hmore
            have hbehind' : used ++ left' = ['"'] ++ more' := hbehind
            obtain ⟨more, hfront⟩ := (halike.append used).exists_append (by decide) hbehind'
            rw [List.cons_append, hfront] at hused
            exact hthree more hc hused
      · have hblank : c ≠ ' ' ∧ c ≠ '\t' := ⟨hspace hskip, htab hskip⟩
        simpa [isSpace] using hblank
  | case17 => contradiction

theorem Steady.dropLineEnd {read : Reader α} (hread : Steady read) :
    Steady fun text => read (dropLineEnd text) := by
  intro text a left htext
  unfold Toml.dropLineEnd at htext
  dsimp only at htext
  split at htext
  next rest => exact (hread _ _ _ htext).step ['\n'] fun _ _ _ _ hrest => hrest
  next rest => exact (hread _ _ _ htext).step ['\r', '\n'] fun _ _ _ _ hrest => hrest
  next hnewline hreturn =>
    refine (hread _ _ _ htext).step [] fun used left' hused halike hrest => ?_
    rw [hused] at hnewline hreturn
    have hnewline' := (halike.append used).ne_append ['\n'] (by decide) hnewline
    have hreturn' := (halike.append used).ne_append ['\r', '\n'] (by decide) hreturn
    rw [List.nil_append, Toml.dropLineEnd]
    · exact hrest
    · exact hnewline'
    · exact hreturn'

theorem steady_readQuoted : Steady readQuoted := by
  intro text content left htext
  unfold readQuoted at htext
  split at htext
  next rest =>
    exact ((steady_readLongBasic false).dropLineEnd _ _ _ htext).step ['"', '"', '"']
      fun _ _ _ _ hrest => hrest
  next rest hquotes =>
    refine (steady_readBasic _ _ _ htext).step ['"'] fun used left' hused halike hrest => ?_
    rw [List.singleton_append, readQuoted]
    · exact hrest
    · rintro more hmore
      -- The string would be empty, and so the second quote is not taken.
      rw [hmore, readBasic] at hrest
      obtain ⟨-, rfl⟩ := Prod.mk.inj (Option.some.inj hrest)
      obtain rfl : used = ['"'] := List.append_cancel_right hmore
      obtain ⟨more', rfl⟩ := halike.exists_append (show '"' ∉ ['"'].dropLast by decide) rfl
      exact hquotes more' hused
  next rest =>
    exact (steady_readLongLiteral.dropLineEnd _ _ _ htext).step ['\'', '\'', '\'']
      fun _ _ _ _ hrest => hrest
  next rest hquotes =>
    refine (steady_readLiteral _ _ _ htext).step ['\''] fun used left' hused halike hrest => ?_
    rw [hused] at hquotes
    have hquotes' := (halike.append used).ne_append ['\'', '\''] (by decide) hquotes
    rw [List.singleton_append, readQuoted]
    · exact hrest
    · exact hquotes'
  next => contradiction

end ThroughputPlot.Toml
