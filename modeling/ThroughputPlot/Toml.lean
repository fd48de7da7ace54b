import ThroughputPlot.Binary64.Literal
import ThroughputPlot.Powers

/-!
# TOML values

A table remembers how it came to be, because that decides what may still be added to
it.  Arrays of tables that are built up by headers are kept apart from arrays written
out in brackets.
-/

namespace ThroughputPlot

inductive Toml.Origin where
  /-- It was written in braces. -/
  | inline
  /-- It has a header of its own. -/
  | header
  /-- It lies on the way to the table of a header. -/
  | implied
  /-- It lies on the way of a dotted key. -/
  | dotted
deriving DecidableEq

inductive Toml where
  | string (text : String)
  /-- An integer, or `none` if its numeral stands for no number. -/
  | integer (value : Option Int)
  /-- A number with a fraction or exponent, or `none` if it is too large. -/
  | float (value : Option Binary64)
  | boolean (value : Bool)
  /-- A date, a time or both. -/
  | moment
  | array (items : List Toml)
  | table (origin : Toml.Origin) (entries : List (String × Toml))
  | tables (items : List (List (String × Toml)))

namespace Toml

abbrev Entries := List (String × Toml)

def find? (key : String) (entries : Entries) : Option Toml := entries.lookup key

def replace (key : String) (value : Toml) (entries : Entries) : Entries :=
  entries.map fun (k, v) => if k = key then (k, value) else (k, v)

/-! ## Adding to a table -/

def changeLast (change : Entries → Option Entries) :
    List Entries → Option (List Entries)
  | [] => none
  | [item] => (change item).map ([·])
  | item :: rest => (changeLast change rest).map (item :: ·)

/--
Adds a value under a dotted key.  The table that takes the value must have been written
by dotted keys; on the way to it a table that a header implies and the last item of an
array of tables may be passed through as well.
-/
def put (value : Toml) : List String → Entries → Option Entries
  | [], _ => none
  | [key], entries =>
    match find? key entries with
    | none => some (entries ++ [(key, value)])
    | some _ => none
  | key :: rest, entries =>
    match find? key entries with
    | none => (put value rest []).map fun inner => entries ++ [(key, .table .dotted inner)]
    | some (.table origin inner) =>
      if origin = .dotted || (origin = .implied && 1 < rest.length) then
        (put value rest inner).map fun inner => replace key (.table origin inner) entries
      else none
    | some (.tables items) =>
      if 1 < rest.length then
        (changeLast (put value rest) items).map fun items => replace key (.tables items) entries
      else none
    | some _ => none

/--
Applies a change to the table that a header path names, making the tables on the way
that are missing.  In an array of tables the last one is meant.
-/
def descend (change : Entries → Option Entries) : List String → Entries → Option Entries
  | [], entries => change entries
  | key :: rest, entries =>
    match find? key entries with
    | none =>
      (descend change rest []).map fun inner => entries ++ [(key, .table .implied inner)]
    | some (.table origin inner) =>
      if origin = .inline then none
      else (descend change rest inner).map fun inner => replace key (.table origin inner) entries
    | some (.tables items) =>
      (changeLast (descend change rest) items).map fun items => replace key (.tables items) entries
    | some _ => none

/-- Opens the table of a header; it may exist only because other headers imply it. -/
def openTable (key : String) (entries : Entries) : Option Entries :=
  match find? key entries with
  | none => some (entries ++ [(key, .table .header [])])
  | some (.table .implied inner) => some (replace key (.table .header inner) entries)
  | some _ => none

def openItem (key : String) (entries : Entries) : Option Entries :=
  match find? key entries with
  | none => some (entries ++ [(key, .tables [[]])])
  | some (.tables items) => some (replace key (.tables (items ++ [[]])) entries)
  | some _ => none

/-! ## Ignoring a value -/

mutual

/--
Whether a value can be passed over.  A number must be within the range of some number
type even where nobody asks for it.
-/
def isReadable : Toml → Bool
  | .integer value => value.any fun n => -(powerOfTwo 127 : Int) ≤ n && n < powerOfTwo 128
  | .float value => value.isSome
  | .array items => areReadable items
  | .table _ entries => entriesReadable entries
  | .tables items => tablesReadable items
  | _ => true

def areReadable : List Toml → Bool
  | [] => true
  | item :: rest => item.isReadable && areReadable rest

def entriesReadable : List (String × Toml) → Bool
  | [] => true
  | (_, value) :: rest => value.isReadable && entriesReadable rest

def tablesReadable : List (List (String × Toml)) → Bool
  | [] => true
  | entries :: rest => entriesReadable entries && tablesReadable rest

end

end Toml

end ThroughputPlot
