import ThroughputPlot.Json
import ThroughputPlot.Binary64.Literal

/-!
# Reading JSON

The reader follows the grammar of JSON and nothing beyond it.  Escapes are read as
UTF-16 units first, and a string has a text only when these units pair up.
-/

namespace ThroughputPlot.Json

open Text (Reader ListForm readList hexNumber? charOfCode?)

def isGap (c : Char) : Bool := c = ' ' || c = '\n' || c = '\r' || c = '\t'

def skipGap (text : List Char) : List Char := text.dropWhile isGap

def shortEscape? (c : Char) : Option Nat :=
  if c = '\x22' then some 0x22
  else if c = '\x5c' then some 0x5C
  else if c = '/' then some 0x2F
  else if c = 'b' then some 8
  else if c = 'f' then some 12
  else if c = 'n' then some 10
  else if c = 'r' then some 13
  else if c = 't' then some 9
  else none

def consUnit (unit : Option Nat) (rest : Option (List Nat × List Char)) :
    Option (List Nat × List Char) :=
  match unit, rest with
  | some n, some (units, left) => some (n :: units, left)
  | _, _ => none

/-- The units of a string up to its closing quote: code points and escaped surrogates. -/
def readUnits : Reader (List Nat)
  | [] => none
  | '\x22' :: rest => some ([], rest)
  | '\x5c' :: 'u' :: a :: b :: c :: d :: rest =>
    consUnit (hexNumber? [a, b, c, d]) (readUnits rest)
  | '\x5c' :: e :: rest => consUnit (shortEscape? e) (readUnits rest)
  | c :: rest => if c.toNat < 32 then none else consUnit (some c.toNat) (readUnits rest)

def isHighSurrogate (n : Nat) : Bool := 0xD800 ≤ n && n ≤ 0xDBFF

def isLowSurrogate (n : Nat) : Bool := 0xDC00 ≤ n && n ≤ 0xDFFF

/-- The text of units, if all surrogates among them pair up. -/
def textOfUnits : List Nat → Option (List Char)
  | [] => some []
  | [n] => (charOfCode? n).map ([·])
  | n :: m :: rest =>
    if isHighSurrogate n && isLowSurrogate m then do
      let c ← charOfCode? (0x10000 + (n - 0xD800) * 0x400 + (m - 0xDC00))
      let tail ← textOfUnits rest
      some (c :: tail)
    else do
      let c ← charOfCode? n
      let tail ← textOfUnits (m :: rest)
      some (c :: tail)

def readString : Reader (Option String) := fun text =>
  (readUnits text).map fun (units, rest) => ((textOfUnits units).map String.ofList, rest)

def readDigits : Reader (List Char) := fun text =>
  let (digits, rest) := takeDigits text
  if digits.isEmpty then none else some (digits, rest)

/-- Reads the whole part of a number, which has no leading zero. -/
def readWhole : Reader (List Char)
  | '0' :: rest => some (['0'], rest)
  | text => readDigits text

/-- Reads the fraction of a number, if there is one. -/
def readFraction : Reader (List Char)
  | '.' :: rest => (readDigits rest).map fun (digits, left) => ('.' :: digits, left)
  | text => some ([], text)

/-- Reads the exponent of a number, if there is one. -/
def readExponent : Reader (List Char)
  | [] => some ([], [])
  | e :: rest =>
    if e = 'e' || e = 'E' then
      let (sign, digits) := match rest with
        | '+' :: more => (['+'], more)
        | '-' :: more => (['-'], more)
        | _ => ([], rest)
      (readDigits digits).map fun (found, left) => (e :: (sign ++ found), left)
    else some ([], e :: rest)

def readNumber : Reader (List Char) := fun text => do
  let (sign, text) := match text with
    | '-' :: rest => (['-'], rest)
    | _ => ([], text)
  let (whole, text) ← readWhole text
  let (fraction, text) ← readFraction text
  let (exponent, text) ← readExponent text
  some (sign ++ whole ++ fraction ++ exponent, text)

def arrayForm : ListForm := ⟨']', false, some ∘ skipGap⟩

def objectForm : ListForm := ⟨'}', false, some ∘ skipGap⟩

/-- Reads a key, a colon and a value. -/
def readMember (value : Reader Json) : Reader (Option String × Json)
  | '\x22' :: rest => do
    let (key, rest) ← readString rest
    match skipGap rest with
    | ':' :: rest => do
      let (item, rest) ← value (skipGap rest)
      some ((key, item), rest)
    | _ => none
  | _ => none

/-- Reads a value that nests at most `depth` arrays and objects, from its first character. -/
def readValue : Nat → Reader Json
  | depth, text =>
    match text with
    | 'n' :: 'u' :: 'l' :: 'l' :: rest => some (.null, rest)
    | 't' :: 'r' :: 'u' :: 'e' :: rest => some (.bool true, rest)
    | 'f' :: 'a' :: 'l' :: 's' :: 'e' :: rest => some (.bool false, rest)
    | '\x22' :: rest => (readString rest).map fun (s, left) => (.string s, left)
    | '[' :: rest =>
      match depth with
      | 0 => none
      | inner + 1 =>
        (readList arrayForm (readValue inner) rest).map fun (items, left) => (.array items, left)
    | '{' :: rest =>
      match depth with
      | 0 => none
      | inner + 1 =>
        (readList objectForm (readMember (readValue inner)) rest).map fun (members, left) =>
          (.object members, left)
    | _ => (readNumber text).map fun (literal, left) => (.number (String.ofList literal), left)

/-- Reads a text that is one value with gaps around it; no value nests deeper than its length. -/
def read? (text : List Char) : Option Json :=
  match readValue text.length (skipGap text) with
  | none => none
  | some (value, rest) => if (skipGap rest).isEmpty then some value else none

end ThroughputPlot.Json
