import ThroughputPlot.Toml.Value

/-!
# TOML documents

A document is a list of statements, each on a line of its own: a key with a value, the
header of a table, or the header of one more table of an array.  A key belongs to the
table of the last header before it.
-/

namespace ThroughputPlot.Toml

open Text (Reader)

inductive Statement where
  | pair (path : List String) (value : Toml)
  | table (path : List String)
  | item (path : List String)

def readStatement : Reader Statement
  | '[' :: '[' :: rest =>
    match readKey (skipSpace rest) with
    | some (path, ']' :: ']' :: left) => some (.item path, left)
    | _ => none
  | '[' :: rest =>
    match readKey (skipSpace rest) with
    | some (path, ']' :: left) => some (.table path, left)
    | _ => none
  | text => (readPair (some ∘ skipSpace) (readValue maxDepth) text).map fun ((path, value), left) =>
    (.pair path value, left)

/-- The text from the next line on, if only spaces and a comment stand before it. -/
def nextLine (text : List Char) : Option (List Char) :=
  match skipSpace text with
  | [] => some []
  | '\n' :: rest => some rest
  | '\r' :: '\n' :: rest => some rest
  | '#' :: rest => skipLines true rest
  | _ => none

def readStatements (text : List Char) : Option (List Statement) :=
  match skipLines false text with
  | none => none
  | some [] => some []
  | some (c :: rest) =>
    match readStatement (c :: rest) with
    | none => none
    | some (statement, left) =>
      match nextLine left with
      | none => none
      | some next =>
        if next.length < text.length then (readStatements next).map (statement :: ·) else none
termination_by text.length

structure Building where
  root : Entries
  header : List String

/-- Opens a table: `opening` is applied to its last name, where the names before it lead. -/
def openAt (opening : String → Entries → Option Entries) (path : List String)
    (building : Building) : Option Building :=
  match path.getLast? with
  | none => none
  | some key =>
    (descend (opening key) path.dropLast building.root).map fun root => ⟨root, path⟩

def obey (building : Building) : Statement → Option Building
  | .pair path value =>
    (descend (put value path) building.header building.root).map fun root =>
      { building with root }
  | .table path => openAt openTable path building
  | .item path => openAt openItem path building

def ofStatements? (statements : List Statement) : Option Entries :=
  (statements.foldlM obey ⟨[], []⟩).map (·.root)

/-- The text without a byte order mark at its front. -/
def dropMark : List Char → List Char
  | '\uFEFF' :: rest => rest
  | text => text

def read? (text : List Char) : Option Entries :=
  (readStatements (dropMark text)).bind ofStatements?

end ThroughputPlot.Toml
