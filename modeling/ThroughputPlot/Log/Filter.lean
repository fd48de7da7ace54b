import ThroughputPlot.Log.Pattern
import ThroughputPlot.Log
import ThroughputPlot.Text.Integer

/-!
# Log filters

A filter is a list of directives with commas between them.  A directive names a target,
a verbosity or both, as in `target=level`, and may ask for a field, as in
`target[{field}]=level`.  An entry is judged by the directive with the longest target
that its own target starts with, and of these by one that asks for a field of the entry;
of two directives alike in both the later counts.  A directive that names a span or the
value of a field is about spans, which no entry here lies in.
-/

namespace ThroughputPlot.Log

inductive Directive where
  /-- Shows the entries of targets that start so and have the field, up to a verbosity. -/
  | target (start : List Char) (field : Option (List Char)) (verbosity : Nat)
  /-- Concerns spans only. -/
  | span
deriving DecidableEq

namespace Filter

/-- The verbosity up to which everything is shown. -/
def everything : Nat := 5

def levelNames : List (String × Nat) :=
  [("off", 0), ("error", 1), ("warn", 2), ("info", 3), ("debug", 4), ("trace", 5)]

def verbosityOfNumber? (text : List Char) : Option Nat :=
  (Text.uint32? text).bind fun n => if n.toNat ≤ everything then some n.toNat else none

/-- The verbosity that a level says, by its name in any letter case or by its number. -/
def verbosity? (text : List Char) : Option Nat :=
  (verbosityOfNumber? text).or (levelNames.lookup (String.ofList (text.map Char.toLower)))

def assignedVerbosity? (text : List Char) : Option Nat :=
  if text.isEmpty then some everything else verbosity? text

/-! ## Reading a directive -/

def isDirectiveStart (c : Char) : Bool :=
  Text.isLetterOrNumeral c || c = '-' || c = ':' || c = '_'

def endsTarget (c : Char) : Bool := c = '=' || c = '['

def endsSpan (c : Char) : Bool := c = ']' || c = '\x7b'

def byteCount (text : List Char) : Nat := (String.ofList text).utf8ByteSize

def dropBytes : Nat → List Char → List Char
  | _, [] => []
  | 0, text => text
  | n + 1, c :: rest => dropBytes (n + 1 - c.utf8Size) rest

def takeBytes (count : Nat) (text : List Char) : List Char :=
  text.take (text.length - (dropBytes count text).length)

/-- A directive without an equals sign: a level, or else a target. -/
def bareDirective (text : List Char) : Directive :=
  match verbosity? text with
  | some n => .target [] none n
  | none => .target text none everything

/-- What a directive becomes once its verbosity is known, if a field filter is well formed. -/
def withField? (start field : List Char) : Option (Nat → Directive) :=
  match Text.cutAt '=' field with
  | [name] => some (.target start (some name))
  | _ :: value :: _ =>
    if (Binary64.ofLiteral? value).isSome || isPattern value then some fun _ => .span else none
  | [] => none

/--
A part of a directive as it is found: places are counted from the first character that is
not a blank, but what stands at a place is looked up in the whole text.
-/
structure Scan where
  text : List Char
  /-- The number of bytes that are read. -/
  place : Nat
  rest : List Char

/-- The verbosity at the end of a directive, with or without an equals sign before it. -/
def lastVerbosity? (scan : Scan) : Option Nat :=
  match scan.rest with
  | [] => some everything
  | '=' :: _ => assignedVerbosity? (dropBytes (scan.place + 1) scan.text)
  | _ => none

/-- Reads what stands in brackets after a target, from after the opening bracket on. -/
def readSpan? (start : List Char) (scan : Scan) : Option Directive :=
  let name := scan.rest.takeWhile (!endsSpan ·)
  let nameEnd := scan.place + byteCount name
  match scan.rest.dropWhile (!endsSpan ·) with
  | ']' :: rest => (lastVerbosity? ⟨scan.text, nameEnd + 1, rest⟩).map fun _ => .span
  | _ :: inner =>
    let field := inner.takeWhile (· ≠ '\x7d')
    let fieldSize := byteCount field
    match inner.dropWhile (· ≠ '\x7d') with
    | _ :: ']' :: rest => do
      if field.isEmpty then none
      let make ← withField? start (takeBytes fieldSize (dropBytes (nameEnd + 1) scan.text))
      let verbosity ← lastVerbosity? ⟨scan.text, nameEnd + fieldSize + 3, rest⟩
      some (if name.isEmpty then make verbosity else .span)
    | _ => none
  | [] => none

def directive? (text : List Char) : Option Directive :=
  let body := Text.trimBlanks text
  let front := body.takeWhile (!endsTarget ·)
  let start := takeBytes (byteCount front) text
  let after := Scan.mk text (byteCount front) (body.drop front.length)
  if !front.isEmpty && !front.head?.any isDirectiveStart then none
  else
    match after.rest with
    | [] => if front.isEmpty then none else some (bareDirective text)
    | '[' :: rest => readSpan? start { after with place := after.place + 1, rest }
    | _ => if front.isEmpty then none else (lastVerbosity? after).map (.target start none)

def directiveTexts (text : List Char) : List (List Char) :=
  (Text.cutAt ',' text).filter (!·.isEmpty)

/-! ## Judging an entry -/

/-- The filter without directives: only errors are shown. -/
def errorsOnly : List Directive := [.target [] none 1]

def read? (text : String) : Option (List Directive) :=
  ((directiveTexts text.toList).mapM directive?).map fun directives =>
    if directives.isEmpty then errorsOnly else directives

def entryFields : List String := ["message"]

def concerns (target : List Char) : Directive → Bool
  | .target start field _ =>
    start.isPrefixOf target && field.all fun name => entryFields.contains (String.ofList name)
  | .span => false

/-- Whether the first of two directives about one target says more about it than the second. -/
def isNearer : Directive → Directive → Bool
  | .target start field _, .target start' field' _ =>
    start'.length < start.length ||
      (start.length = start'.length && field.isSome && field'.isNone)
  | .target .., .span => true
  | .span, _ => false

/-- The one of two directives that decides: the nearer one, else the later. -/
def decisive (first second : Directive) : Directive :=
  if isNearer first second then first else second

/-- The verbosity up to which a filter shows the entries of a target. -/
def verbosityFor (filter : List Directive) (target : List Char) : Nat :=
  match (filter.filter (concerns target)).foldl decisive .span with
  | .target _ _ n => n
  | .span => 0

def shows (filter : List Directive) (entry : Entry) : Bool :=
  entry.level.verbosity ≤ verbosityFor filter entry.scope.target.toList

def variableName : String := "RUST_LOG"

/-- The filter that holds when none is given. -/
def default (isVerbose : Bool) : List Directive :=
  let own := "rhm_plot".toList
  if isVerbose then [.target own none 4, .target [] none 3] else [.target own none 3]

/-- The filter that a text gives; without a text, or if it cannot be read, the default holds. -/
def choose (isVerbose : Bool) (text : Option String) : List Directive :=
  (text.bind read?).getD (default isVerbose)

end Filter

end ThroughputPlot.Log
