import ThroughputPlot.Text.Items

/-!
# TOML strings

A basic string has double quotes and escapes, a literal string single quotes and none.
Either may be written between three quotes on several lines.  No control character but
the tab stands in a string, apart from line ends between three quotes.
-/

namespace ThroughputPlot.Toml

open Text (Reader hexNumber? charOfCode?)

def isAllowed (c : Char) : Bool := c = '\t' || (0x20 ≤ c.toNat && c.toNat ≠ 0x7F)

def isSpace (c : Char) : Bool := c = ' ' || c = '\t'

def consChar (c : Option Char) (rest : Option (List Char × List Char)) :
    Option (List Char × List Char) :=
  match c, rest with
  | some c, some (text, left) => some (c :: text, left)
  | _, _ => none

def escapedCode? (digits : List Char) : Option Char := (hexNumber? digits).bind charOfCode?

def shortEscape? (c : Char) : Option Char :=
  if c = '\x22' then some '\x22'
  else if c = '\x5c' then some '\x5c'
  else if c = 'b' then some '\x08'
  else if c = 'e' then some '\x1b'
  else if c = 'f' then some '\x0c'
  else if c = 'n' then some '\n'
  else if c = 'r' then some '\r'
  else if c = 't' then some '\t'
  else none

def readBasic : Reader (List Char)
  | [] => none
  | '\x22' :: rest => some ([], rest)
  | '\x5c' :: 'x' :: a :: b :: rest => consChar (escapedCode? [a, b]) (readBasic rest)
  | '\x5c' :: 'u' :: a :: b :: c :: d :: rest =>
    consChar (escapedCode? [a, b, c, d]) (readBasic rest)
  | '\x5c' :: 'U' :: a :: b :: c :: d :: e :: f :: g :: h :: rest =>
    consChar (escapedCode? [a, b, c, d, e, f, g, h]) (readBasic rest)
  | '\x5c' :: c :: rest => consChar (shortEscape? c) (readBasic rest)
  | c :: rest => if isAllowed c then consChar (some c) (readBasic rest) else none

def readLiteral : Reader (List Char)
  | [] => none
  | '\x27' :: rest => some ([], rest)
  | c :: rest => if isAllowed c then consChar (some c) (readLiteral rest) else none

def endsLine (text : List Char) : Bool :=
  match text.dropWhile isSpace with
  | '\n' :: _ => true
  | '\r' :: '\n' :: _ => true
  | _ => false

/--
Reads a basic string between three quotes, after the opening ones.  Up to two quotes
may stand right before the closing ones.  After a backslash at the end of a line all
spaces and line ends are skipped.
-/
def readLongBasic : Bool → Reader (List Char)
  | _, [] => none
  | _, '\x22' :: '\x22' :: '\x22' :: '\x22' :: '\x22' :: rest => some (['\x22', '\x22'], rest)
  | _, '\x22' :: '\x22' :: '\x22' :: '\x22' :: rest => some (['\x22'], rest)
  | _, '\x22' :: '\x22' :: '\x22' :: rest => some ([], rest)
  | true, '\n' :: rest => readLongBasic true rest
  | true, '\r' :: '\n' :: rest => readLongBasic true rest
  | true, ' ' :: rest => readLongBasic true rest
  | true, '\t' :: rest => readLongBasic true rest
  | _, '\n' :: rest => consChar (some '\n') (readLongBasic false rest)
  | _, '\r' :: '\n' :: rest =>
    consChar (some '\r') (consChar (some '\n') (readLongBasic false rest))
  | _, '\x5c' :: 'x' :: a :: b :: rest =>
    consChar (escapedCode? [a, b]) (readLongBasic false rest)
  | _, '\x5c' :: 'u' :: a :: b :: c :: d :: rest =>
    consChar (escapedCode? [a, b, c, d]) (readLongBasic false rest)
  | _, '\x5c' :: 'U' :: a :: b :: c :: d :: e :: f :: g :: h :: rest =>
    consChar (escapedCode? [a, b, c, d, e, f, g, h]) (readLongBasic false rest)
  | _, '\x5c' :: c :: rest =>
    if endsLine (c :: rest) then readLongBasic true (c :: rest)
    else consChar (shortEscape? c) (readLongBasic false rest)
  | _, c :: rest => if isAllowed c then consChar (some c) (readLongBasic false rest) else none

/-- Reads a literal string between three quotes, after the opening ones. -/
def readLongLiteral : Reader (List Char)
  | [] => none
  | '\x27' :: '\x27' :: '\x27' :: '\x27' :: '\x27' :: rest => some (['\x27', '\x27'], rest)
  | '\x27' :: '\x27' :: '\x27' :: '\x27' :: rest => some (['\x27'], rest)
  | '\x27' :: '\x27' :: '\x27' :: rest => some ([], rest)
  | '\n' :: rest => consChar (some '\n') (readLongLiteral rest)
  | '\r' :: '\n' :: rest => consChar (some '\r') (consChar (some '\n') (readLongLiteral rest))
  | c :: rest => if isAllowed c then consChar (some c) (readLongLiteral rest) else none

/-- The text without a line end at its very front. -/
def dropLineEnd : List Char → List Char
  | '\n' :: rest => rest
  | '\r' :: '\n' :: rest => rest
  | text => text

/-- Reads any string from its first quote; `none` if the text starts with no quote. -/
def readQuoted : Reader (List Char)
  | '\x22' :: '\x22' :: '\x22' :: rest => readLongBasic false (dropLineEnd rest)
  | '\x22' :: rest => readBasic rest
  | '\x27' :: '\x27' :: '\x27' :: rest => readLongLiteral (dropLineEnd rest)
  | '\x27' :: rest => readLiteral rest
  | _ => none

end ThroughputPlot.Toml
