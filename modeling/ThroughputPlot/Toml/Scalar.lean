import ThroughputPlot.Text.Integer
import ThroughputPlot.Text.Items
import ThroughputPlot.Toml
import ThroughputPlot.Toml.Quoted

/-!
# TOML numbers, dates and times

A plain scalar is read as a whole from the characters it is written with.  An integer
takes hexadecimal digits after a grouping underscore, and a base mark may have no digits;
such a numeral stands for no number, which is a fault only where its value is asked for.
-/

namespace ThroughputPlot.Toml

open Text (Reader hexDigit? natural?)

/-- Digits with single underscores between them, without the underscores. -/
def ungroup (isDigit : Char → Bool) : List Char → Option (List Char)
  | [] => none
  | [c] => if isDigit c then some [c] else none
  | c :: '_' :: rest => if isDigit c then (ungroup isDigit rest).map (c :: ·) else none
  | c :: rest => if isDigit c then (ungroup isDigit rest).map (c :: ·) else none

/-! ## Integers -/

def natOfBase (base : Nat) (digits : List Char) : Nat :=
  digits.foldl (fun n c => base * n + (hexDigit? c).getD 0) 0

def isDigitOf (base : Nat) (c : Char) : Bool := (hexDigit? c).any (· < base)

def basedInteger? (base : Nat) (digits : List Char) : Option (Option Int) :=
  if digits.isEmpty then some none
  else (ungroup (isDigitOf base) digits).map fun found => some (natOfBase base found : Int)

/-- Whether two neighbours may stand side by side where underscores group digits. -/
def groupsWell (left right : Char) : Bool :=
  (left ≠ '_' || (hexDigit? right).isSome) && (right ≠ '_' || (hexDigit? left).isSome)

/-- Whether every underscore of a text stands between two hexadecimal digits. -/
def isGrouped (text : List Char) : Bool :=
  text.head? ≠ some '_' && text.getLast? ≠ some '_' &&
    (text.zip (text.drop 1)).all fun (left, right) => groupsWell left right

/-- Whether a character may not follow the first underscore of an integer. -/
def endsInteger (c : Char) : Bool := c = '.' || c = 'e' || c = 'E' || c = ' '

def signedNumber? (text : List Char) : Option Int :=
  let (negative, digits) := takeSign text
  (natural? digits).map (Binary64.withSign negative)

/-- Reads an integer without a mark of a base, and without a zero before other digits. -/
def decimalInteger? (text : List Char) : Option (Option Int) :=
  let body := (takeSign text).2
  let rest := body.dropWhile Char.isDigit
  let startsWell := body.head?.any Char.isDigit && (body.head? ≠ some '0' || body.length = 1)
  let endsWell :=
    rest.isEmpty || (rest.head? = some '_' && !rest.any endsInteger && isGrouped body)
  if startsWell && endsWell then some (signedNumber? (text.filter (· ≠ '_'))) else none

/-- Reads an integer; the inner value is missing if the numeral stands for no number. -/
def integer? (text : List Char) : Option (Option Int) :=
  match text with
  | '0' :: 'x' :: digits => basedInteger? 16 digits
  | '0' :: 'o' :: digits => basedInteger? 8 digits
  | '0' :: 'b' :: digits => basedInteger? 2 digits
  | _ => decimalInteger? text

/-! ## Floating point numbers -/

/-- Decimal digits, grouped or not, without a zero before others. -/
def wholeDigits? (text : List Char) : Option (List Char) :=
  match ungroup Char.isDigit text with
  | some ('0' :: _ :: _) => none
  | found => found

def takeGrouped (text : List Char) : List Char × List Char :=
  let isPart := fun c : Char => c.isDigit || c = '_'
  (text.takeWhile isPart, text.dropWhile isPart)

/-- The digits after a point, if a point is there. -/
def fraction? : List Char → Option (List Char × List Char)
  | '.' :: rest =>
    let (digits, left) := takeGrouped rest
    (ungroup Char.isDigit digits).map fun found => (found, left)
  | text => some ([], text)

/-- The exponent at the end, if one is there. -/
def exponent? : List Char → Option Int
  | [] => some 0
  | c :: rest =>
    if c = 'e' || c = 'E' then
      let (negative, digits) := takeSign rest
      (ungroup Char.isDigit digits).map fun found =>
        Binary64.withSign negative (natOfDigits found)
    else none

/-- A number unless it is infinite. -/
def finite? (x : Binary64) : Option Binary64 := if x.isFinite then some x else none

/-- Reads a number with a fraction, an exponent or both, or one of the words for special values. -/
def float? (text : List Char) : Option (Option Binary64) :=
  let (negative, rest) := takeSign text
  if rest = "inf".toList then some (some (.infinite negative))
  else if rest = "nan".toList then some (some .nan)
  else do
    let (whole, rest) := takeGrouped rest
    let whole ← wholeDigits? whole
    if rest.isEmpty then none
    let (part, rest) ← fraction? rest
    let exponent ← exponent? rest
    let digits := whole ++ part
    some (finite? (.ofNumeral negative (natOfDigits digits) digits.length
      (exponent - part.length)))

/-! ## Dates and times -/

def readDigits (count low high : Nat) : Reader Nat := fun text =>
  (natural? (text.take count)).bind fun n =>
    if text.length < count || n < low || high < n then none else some (n, text.drop count)

def readMark (mark : Char) : Reader Unit
  | [] => none
  | c :: rest => if c = mark then some ((), rest) else none

def daysOfMonth (year month : Nat) : Nat :=
  if month = 2 then
    if year % 4 = 0 && (year % 100 ≠ 0 || year % 400 = 0) then 29 else 28
  else if month = 4 || month = 6 || month = 9 || month = 11 then 30
  else 31

def readDate : Reader Unit := fun text => do
  let (year, text) ← readDigits 4 0 9999 text
  let (_, text) ← readMark '-' text
  let (month, text) ← readDigits 2 1 12 text
  let (_, text) ← readMark '-' text
  let (_, text) ← readDigits 2 1 (daysOfMonth year month) text
  some ((), text)

/-- Reads the fraction of a second, if there is one. -/
def readSecondFraction : Reader Unit
  | '.' :: rest =>
    let (digits, left) := takeDigits rest
    if digits.isEmpty then none else some ((), left)
  | text => some ((), text)

/-- Reads the time of day; seconds may be left out. -/
def readTime : Reader Unit := fun text => do
  let (_, text) ← readDigits 2 0 23 text
  let (_, text) ← readMark ':' text
  let (_, text) ← readDigits 2 0 59 text
  match text with
  | ':' :: rest => do
    let (_, rest) ← readDigits 2 0 60 rest
    readSecondFraction rest
  | _ => some ((), text)

/-- Reads the distance from universal time, if it is given. -/
def readOffset : Reader Unit
  | [] => some ((), [])
  | c :: rest =>
    if c = 'Z' || c = 'z' then some ((), rest)
    else if c = '+' || c = '-' then do
      let (_, rest) ← readDigits 2 0 23 rest
      let (_, rest) ← readMark ':' rest
      let (_, rest) ← readDigits 2 0 59 rest
      some ((), rest)
    else none

/-- Whether a text is a date, a time or both. -/
def isMoment (text : List Char) : Bool :=
  match readDate text with
  | some (_, []) => true
  | some (_, c :: rest) =>
    if c = 'T' || c = 't' || c = ' ' then
      match (readTime rest).bind fun (_, left) => readOffset left with
      | some (_, []) => true
      | _ => false
    else false
  | none =>
    match readTime text with
    | some (_, []) => true
    | _ => false

def scalar? (text : List Char) : Option Toml :=
  if text = "true".toList then some (.boolean true)
  else if text = "false".toList then some (.boolean false)
  else
    match integer? text with
    | some n => some (.integer n)
    | none =>
      match float? text with
      | some x => some (.float x)
      | none => if isMoment text then some .moment else none

/-! ## Plain scalars -/

def isScalarChar (c : Char) : Bool :=
  !(c = '=' || c = ',' || c = '[' || c = ']' || c = '\x7b' || c = '\x7d' || c = ' ' ||
    c = '\t' || c = '#' || c = '\r' || c = '\n')

def continuesScalar (text : List Char) : Bool :=
  match text.dropWhile isSpace with
  | [] => false
  | c :: _ => isScalarChar c && c ≠ '.' && c ≠ '\x22' && c ≠ '\x27'

/-- Splits off a plain scalar, with the spaces inside it. -/
def takeScalar : List Char → List Char × List Char
  | [] => ([], [])
  | c :: rest =>
    if isScalarChar c || (isSpace c && continuesScalar rest) then
      let (scalar, left) := takeScalar rest
      (c :: scalar, left)
    else ([], c :: rest)

def readScalar : Reader Toml := fun text =>
  let (scalar, left) := takeScalar text
  (scalar? scalar).map fun value => (value, left)

end ThroughputPlot.Toml
