import ThroughputPlot.Toml.Quoted
import ThroughputPlot.Toml.Scalar

/-!
# TOML keys and values

A key is a path of names with dots between them.  Arrays and inline tables may spread
over lines, hold comments and end with a comma.  Neither values nor names in a key nest
more than eighty deep.
-/

namespace ThroughputPlot.Toml

open Text (Reader ListForm readList)

/-- Whether a name may be written without quotes with a character. -/
def isNameChar (c : Char) : Bool := c.isAlphanum || c = '_' || c = '-'

def skipSpace (text : List Char) : List Char := text.dropWhile isSpace

def readName : Reader String
  | '\x22' :: rest => (readBasic rest).map fun (name, left) => (String.ofList name, left)
  | '\x27' :: rest => (readLiteral rest).map fun (name, left) => (String.ofList name, left)
  | text =>
    let name := text.takeWhile isNameChar
    if name.isEmpty then none else some (String.ofList name, text.dropWhile isNameChar)

/-- The greatest number of names in a key, and of arrays and inline tables in each other. -/
def maxDepth : Nat := 80

/-- Reads names with dots between them, and the spaces after them. -/
def readNames (text : List Char) : Option (List String × List Char) :=
  match readName text with
  | none => none
  | some (name, rest) =>
    match skipSpace rest with
    | '.' :: more =>
      let next := skipSpace more
      if next.length < text.length then
        match readNames next with
        | none => none
        | some (names, left) => some (name :: names, left)
      else none
    | left => some ([name], left)
termination_by text.length

def readKey : Reader (List String) := fun text =>
  match readNames text with
  | some (names, left) => if names.length ≤ maxDepth then some (names, left) else none
  | none => none

/--
The text after the spaces, line ends and comments at its front; `isComment` says
whether it starts inside a comment.
-/
def skipLines : Bool → List Char → Option (List Char)
  | _, [] => some []
  | _, '\n' :: rest => skipLines false rest
  | _, '\r' :: '\n' :: rest => skipLines false rest
  | true, c :: rest => if isAllowed c then skipLines true rest else none
  | false, c :: rest =>
    if isSpace c then skipLines false rest
    else if c = '#' then skipLines true rest
    else some (c :: rest)

def arrayForm : ListForm := ⟨']', true, skipLines false⟩

def inlineForm : ListForm := ⟨'}', true, skipLines false⟩

/-- Reads a key, an equals sign and a value, with gaps around the sign. -/
def readPair (skipGap : List Char → Option (List Char)) (value : Reader Toml) :
    Reader (List String × Toml) := fun text => do
  let (path, rest) ← readKey text
  match ← skipGap rest with
  | '=' :: rest =>
    let (v, left) ← value (← skipGap rest)
    some ((path, v), left)
  | _ => none

/-- The entries of an inline table, added one after the other. -/
def inlineEntries (pairs : List (List String × Toml)) : Option Entries :=
  pairs.foldlM (fun entries (path, value) => put value path entries) []

/-- Reads a value that nests at most `depth` arrays and inline tables. -/
def readValue : Nat → Reader Toml
  | depth, text =>
    match text with
    | '[' :: rest =>
      match depth with
      | 0 => none
      | inner + 1 =>
        (readList arrayForm (readValue inner) rest).map fun (items, left) => (.array items, left)
    | '{' :: rest =>
      match depth with
      | 0 => none
      | inner + 1 =>
        match readList inlineForm (readPair (skipLines false) (readValue inner)) rest with
        | none => none
        | some (pairs, left) =>
          (inlineEntries pairs).map fun entries => (.table .inline entries, left)
    | '\x22' :: _ => (readQuoted text).map fun (s, left) => (.string (String.ofList s), left)
    | '\x27' :: _ => (readQuoted text).map fun (s, left) => (.string (String.ofList s), left)
    | _ => readScalar text

end ThroughputPlot.Toml
