import ThroughputPlot.Text.Blank
import ThroughputPlot.Text.Items
import ThroughputPlot.Text.Letter

/-!
# Patterns

A log filter may hold a regular expression.  Here it is only checked, not matched: groups
and sets are closed, operators have something to repeat, escapes are known, ranges
increase and names of groups differ.  A pattern lies between braces, so what needs a
closing brace is never complete in it.  It must be decidable character by character in
valid text, which rules out word boundaries between letters beyond ASCII, and single
bytes beyond ASCII.
-/

namespace ThroughputPlot.Log.Pattern

open Text (Reader hexDigit? hexNumber? charOfCode? isBlank isLetter isLetterOrNumeral)

/-- How a stretch of a pattern is read; a group may change it up to its end. -/
structure Mode where
  /-- Whether blanks and remarks between the parts count for nothing. -/
  skipsBlanks : Bool
  /-- Whether sets and boundaries are about all characters, not ASCII alone. -/
  isUnicode : Bool

def Mode.initial : Mode := ⟨false, true⟩

def skipRemarks : Bool → List Char → List Char
  | _, [] => []
  | true, c :: rest => skipRemarks (c ≠ '\n') rest
  | false, c :: rest =>
    if isBlank c then skipRemarks false rest
    else if c = '#' then skipRemarks true rest
    else c :: rest

def skipGap (mode : Mode) (text : List Char) : List Char :=
  if mode.skipsBlanks then skipRemarks false text else text

/-! ## Escapes -/

/-- What an escape stands for. -/
inductive Atom where
  | character (c : Char)
  | set
  /-- A place between characters. -/
  | place

def readHex (mode : Mode) : Nat → Reader (List Char)
  | 0, text => some ([], text)
  | n + 1, text =>
    match skipGap mode text with
    | [] => none
    | c :: rest =>
      if (hexDigit? c).isSome then
        (readHex mode n rest).map fun (digits, left) => (c :: digits, left)
      else none

/-- Reads the code point of a character; two digits beyond ASCII may mean a single byte. -/
def readCode (mode : Mode) (count : Nat) : Reader Atom := fun text => do
  let (digits, left) ← readHex mode count text
  let c ← (hexNumber? digits).bind charOfCode?
  if count = 2 && !mode.isUnicode && 0x80 ≤ c.toNat then none else some (.character c, left)

def categories : List Char := "CLMNPSZ".toList

def readCategory (mode : Mode) (text : List Char) : Option (Atom × List Char) :=
  match skipGap mode text with
  | [] => none
  | c :: rest => if mode.isUnicode && categories.contains c.toUpper then some (.set, rest) else none

def shortEscape? (c : Char) : Option Char :=
  if c = 'a' then some '\x07'
  else if c = 'f' then some '\x0c'
  else if c = 'n' then some '\n'
  else if c = 'r' then some '\r'
  else if c = 't' then some '\t'
  else if c = 'v' then some '\x0b'
  else none

def readEscape (mode : Mode) : Reader Atom
  | [] => none
  | c :: rest =>
    if c = 'x' then readCode mode 2 rest
    else if c = 'u' then readCode mode 4 rest
    else if c = 'U' then readCode mode 8 rest
    else if c = 'p' || c = 'P' then readCategory mode rest
    else if c = 'd' || c = 's' || c = 'w' then some (.set, rest)
    else if c = 'D' || c = 'S' || c = 'W' then if mode.isUnicode then some (.set, rest) else none
    else if c = 'A' || c = 'z' then some (.place, rest)
    else if c = 'b' || c = 'B' || c = '<' || c = '>' then
      if mode.isUnicode then none else some (.place, rest)
    else
      match shortEscape? c with
      | some character => some (.character character, rest)
      | none => if c.toNat < 0x80 && !c.isAlphanum then some (.character c, rest) else none

/-! ## Sets -/

def readSetAtom (mode : Mode) : Reader Atom
  | [] => none
  | '\x5c' :: rest => readEscape mode rest
  | c :: rest => some (.character c, rest)

def isSetItem (mode : Mode) : Atom → Bool
  | .character c => mode.isUnicode || c.toNat < 0x80
  | .set => true
  | .place => false

/-- The text after an item or a range of a set; something must follow it. -/
def readSetItem (mode : Mode) (text : List Char) : Option (List Char) := do
  let (first, left) ← readSetAtom mode text
  if !isSetItem mode first then none
  match skipGap mode left with
  | [] => none
  | '-' :: more =>
    match skipGap mode more with
    | [] => none
    | ']' :: _ => some ('-' :: more)
    | '-' :: _ => some ('-' :: more)
    | next =>
      let (second, left) ← readSetAtom mode next
      if !isSetItem mode second then none
      match first, second with
      | .character a, .character b => if a ≤ b then some left else none
      | _, _ => none
  | left => some left

def classNames : List String :=
  ["alnum", "alpha", "ascii", "blank", "cntrl", "digit", "graph", "lower", "print", "punct",
    "space", "upper", "word", "xdigit"]

/-- Reads the name of a class after its opening bracket; the value is whether it is negated. -/
def readClassName : Reader Bool
  | ':' :: rest =>
    let isNegated := rest.head? = some '^'
    let inner := if isNegated then rest.drop 1 else rest
    let name := inner.takeWhile (· ≠ ':')
    match inner.dropWhile (· ≠ ':') with
    | ':' :: ']' :: left =>
      if classNames.contains (String.ofList name) then some (isNegated, left) else none
    | _ => none
  | _ => none

def skipHyphens (mode : Mode) : List Char → List Char
  | '-' :: rest => skipHyphens mode rest
  | c :: rest => if mode.skipsBlanks && isBlank c then skipHyphens mode rest else c :: rest
  | [] => []

/--
The text after the start of a set, from after its opening bracket: a negation, then
hyphens or else a closing bracket, which stand for themselves there.
-/
def openSet (mode : Mode) (text : List Char) : Option (List Char) :=
  match skipGap mode text with
  | '^' :: rest => if mode.isUnicode then some (openItems (skipGap mode rest)) else none
  | first => some (openItems first)
where
  /-- The text after the first items, if they are hyphens or a closing bracket. -/
  openItems (text : List Char) : List Char :=
    match text with
    | '-' :: _ => skipHyphens mode text
    | ']' :: rest => skipGap mode rest
    | _ => text

/-- The text after a set, in which `depth` brackets more are open than one. -/
def readSet (mode : Mode) : Nat → Nat → List Char → Option (List Char)
  | 0, _, _ => none
  | fuel + 1, depth, text =>
    match skipGap mode text with
    | [] => none
    | '[' :: rest =>
      match readClassName rest with
      | some (isNegated, left) =>
        if isNegated && !mode.isUnicode then none else readSet mode fuel depth left
      | none => (openSet mode rest).bind (readSet mode fuel (depth + 1))
    | ']' :: rest =>
      match depth with
      | 0 => some rest
      | outer + 1 => readSet mode fuel outer rest
    | '&' :: '&' :: rest => readSet mode fuel depth rest
    | '-' :: '-' :: rest => readSet mode fuel depth rest
    | '~' :: '~' :: rest => readSet mode fuel depth rest
    | next => (readSetItem mode next).bind (readSet mode fuel depth)

/-! ## Groups -/

inductive Opening where
  /-- A group that is read in a mode of its own and may have a name. -/
  | group (mode : Mode) (name : Option (List Char))
  /-- A change of mode up to the end of the group around it. -/
  | flags (mode : Mode)

def flagLetters : List Char := "imsUuxR".toList

def Mode.withFlag (mode : Mode) (flag : Char) (value : Bool) : Mode :=
  if flag = 'x' then { mode with skipsBlanks := value }
  else if flag = 'u' then { mode with isUnicode := value }
  else mode

/-- Reads flags after a question mark; `seen` holds what was read already, the last first. -/
def readFlags (mode : Mode) (seen : List Char) : Reader Opening
  | [] => none
  | c :: rest =>
    if c = ')' || c = ':' then
      if seen.head? = some '-' then none
      else if c = ':' then some (.group mode none, rest)
      else if seen.isEmpty then none
      else some (.flags mode, rest)
    else if seen.contains c then none
    else if c = '-' then readFlags mode (c :: seen) rest
    else if flagLetters.contains c then
      readFlags (mode.withFlag c (!seen.contains '-')) (c :: seen) rest
    else none

def isGroupName : List Char → Bool
  | [] => false
  | first :: rest =>
    (first = '_' || isLetter first) &&
      rest.all fun c => c = '_' || c = '.' || c = '[' || c = ']' || isLetterOrNumeral c

def readGroupName (mode : Mode) : Reader Opening := fun text =>
  let name := text.takeWhile (· ≠ '>')
  match text.dropWhile (· ≠ '>') with
  | _ :: rest => if isGroupName name then some (.group mode (some name), rest) else none
  | [] => none

/-- Reads what follows an opening parenthesis; there is no looking ahead or behind. -/
def readOpening (mode : Mode) : Reader Opening := fun text =>
  match skipGap mode text with
  | '?' :: '=' :: _ => none
  | '?' :: '!' :: _ => none
  | '?' :: '<' :: '=' :: _ => none
  | '?' :: '<' :: '!' :: _ => none
  | '?' :: 'P' :: '<' :: rest => readGroupName mode rest
  | '?' :: '<' :: rest => readGroupName mode rest
  | '?' :: rest => readFlags mode [] rest
  | rest => some (.group mode none, rest)

/-! ## Whole patterns -/

/-- The text after a question mark at its front, which makes a repetition reluctant. -/
def skipReluctance : List Char → List Char
  | '?' :: rest => rest
  | text => text

/-- Where the reading of a pattern has come to. -/
structure Progress where
  mode : Mode
  /-- The modes to return to at the ends of the open groups, the innermost first. -/
  outer : List Mode
  /-- The names of the groups so far. -/
  names : List (List Char)
  /-- Whether there is something to repeat. -/
  canRepeat : Bool

def isRest : Nat → Progress → List Char → Bool
  | 0, _, _ => false
  | fuel + 1, progress, text =>
    let mode := progress.mode
    let item := { progress with canRepeat := true }
    match skipGap mode text with
    | [] => progress.outer.isEmpty
    | '(' :: rest =>
      match readOpening mode rest with
      | none => false
      | some (.flags mode, left) => isRest fuel { progress with mode, canRepeat := false } left
      | some (.group inner name, left) =>
        !name.any progress.names.contains &&
          isRest fuel ⟨inner, mode :: progress.outer, name.toList ++ progress.names, false⟩ left
    | ')' :: rest =>
      match progress.outer with
      | [] => false
      | mode :: outer => isRest fuel { item with mode, outer } rest
    | '|' :: rest => isRest fuel { progress with canRepeat := false } rest
    | '[' :: rest =>
      match (openSet mode rest).bind (readSet mode fuel 0) with
      | none => false
      | some left => isRest fuel item left
    | '\x5c' :: rest =>
      match readEscape mode rest with
      | none => false
      | some (_, left) => isRest fuel item left
    | c :: rest =>
      if c = '*' || c = '+' || c = '?' then
        progress.canRepeat && isRest fuel item (skipReluctance rest)
      else if c = '\x7b' || (c = '.' && !mode.isUnicode) then false
      else isRest fuel item rest

end Pattern

def isPattern (text : List Char) : Bool :=
  Pattern.isRest (text.length + 1) ⟨.initial, [], [], false⟩ text

end ThroughputPlot.Log
