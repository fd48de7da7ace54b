/-!
# Separated items

Lists in a notation share one form: items with commas between them, a closing bracket,
and gaps around both.  What an item is, what may fill a gap and whether a comma may
stand before the closing bracket are parameters.
-/

namespace ThroughputPlot.Text

/-- Reads something from the front of a text and gives what is left. -/
abbrev Reader (α : Type) := List Char → Option (α × List Char)

structure ListForm where
  /-- The bracket that ends the list. -/
  close : Char
  /-- Whether a comma may follow the last item. -/
  allowsLastComma : Bool
  /-- Skips what may stand between items, commas and brackets. -/
  skipGap : List Char → Option (List Char)

variable {α : Type}

/--
Reads items up to the closing bracket, from the start of an item or at the bracket.
`isOpen` says whether the list may end here.  Every item takes at least one character
of the text, otherwise the reading ends without a result.
-/
def readItems (form : ListForm) (item : Reader α) (isOpen : Bool) (text : List Char) :
    Option (List α × List Char) :=
  match text with
  | [] => none
  | c :: rest =>
    if c = form.close then
      if isOpen then some ([], rest) else none
    else
      match item (c :: rest) with
      | none => none
      | some (value, afterItem) =>
        match form.skipGap afterItem with
        | none => none
        | some [] => none
        | some (mark :: afterMark) =>
          if mark = form.close then some ([value], afterMark)
          else if mark = ',' then
            match form.skipGap afterMark with
            | none => none
            | some next =>
              if next.length < (c :: rest).length then
                match readItems form item form.allowsLastComma next with
                | none => none
                | some (values, left) => some (value :: values, left)
              else none
          else none
termination_by text.length
decreasing_by assumption

def readList (form : ListForm) (item : Reader α) (text : List Char) :
    Option (List α × List Char) :=
  match form.skipGap text with
  | none => none
  | some first => readItems form item true first

section

variable {form : ListForm} {item : Reader α} {isOpen : Bool}

theorem readItems_closed {rest : List Char} (hopen : isOpen = true) :
    readItems form item isOpen (form.close :: rest) = some ([], rest) := by
  rw [readItems, if_pos rfl, if_pos hopen]

theorem readItems_last {text after left : List Char} {c : Char} {value : α}
    (hhead : text.head? = some c) (hc : c ≠ form.close) (hitem : item text = some (value, after))
    (hgap : form.skipGap after = some (form.close :: left)) :
    readItems form item isOpen text = some ([value], left) := by
  cases text with
  | nil => contradiction
  | cons d rest =>
    obtain rfl := Option.some.inj hhead
    rw [readItems, if_neg hc]
    simp [hitem, hgap]

theorem readItems_more {text after more next : List Char} {c : Char} {value : α}
    (hhead : text.head? = some c) (hc : c ≠ form.close) (hitem : item text = some (value, after))
    (hgap : form.skipGap after = some (',' :: more)) (hcomma : ',' ≠ form.close)
    (hnext : form.skipGap more = some next) (hlt : next.length < text.length) :
    readItems form item isOpen text =
      (readItems form item form.allowsLastComma next).map fun (values, left) =>
        (value :: values, left) := by
  cases text with
  | nil => contradiction
  | cons d rest =>
    obtain rfl := Option.some.inj hhead
    rw [readItems, if_neg hc]
    simp only [hitem, hgap, hnext, if_neg hcomma, if_true, if_pos hlt]
    cases readItems form item form.allowsLastComma next <;> rfl

theorem readList_of_gap {text first : List Char} (hfirst : form.skipGap text = some first) :
    readList form item text = readItems form item true first := by
  rw [readList, hfirst]

end

def hexDigit? (c : Char) : Option Nat :=
  if '0' ≤ c && c ≤ '9' then some (c.toNat - 48)
  else if 'a' ≤ c && c ≤ 'f' then some (c.toNat - 87)
  else if 'A' ≤ c && c ≤ 'F' then some (c.toNat - 55)
  else none

/-- The number that hexadecimal digits spell, at least one and nothing else. -/
def hexNumber? (digits : List Char) : Option Nat :=
  if digits.isEmpty then none
  else digits.foldl (fun n c => do some (16 * (← n) + (← hexDigit? c))) (some 0)

/-- The character of a code point, unless it is none. -/
def charOfCode? (n : Nat) : Option Char :=
  if h : n.isValidChar then some (Char.ofNatAux n h) else none

end ThroughputPlot.Text
