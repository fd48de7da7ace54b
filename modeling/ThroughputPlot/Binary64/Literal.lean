import ThroughputPlot.Binary64.Basic

/-!
# Number literals

A literal is an optional sign and then either one of the words `inf`, `infinity` and
`nan` in any letter case, or decimal digits with at most one point among or beside
them and an optional exponent.  It reads as the number nearest to what it says.
-/

namespace ThroughputPlot

def natOfDigits (digits : List Char) : Nat :=
  digits.foldl (fun n c => 10 * n + (c.toNat - 48)) 0

/-- Splits a sign off the front; no sign means not negative. -/
def takeSign : List Char → Bool × List Char
  | '+' :: rest => (false, rest)
  | '-' :: rest => (true, rest)
  | text => (false, text)

/-- The digits at the front, and what follows them. -/
def takeDigits (text : List Char) : List Char × List Char :=
  (text.takeWhile Char.isDigit, text.dropWhile Char.isDigit)

namespace Binary64

/-- The exponent that ends a literal: nothing, or `e`, an optional sign and digits. -/
def exponent? : List Char → Option Int
  | [] => some 0
  | c :: rest =>
    if c = 'e' || c = 'E' then
      let (negative, digits) := takeSign rest
      if digits.isEmpty || !digits.all Char.isDigit then none
      else some (withSign negative (natOfDigits digits))
    else none

/--
The number nearest to `digits * 10 ^ exponent` for a numeral of `length` digits.
Numbers from `10 ^ 400` up are infinite and those below `10 ^ (-400)` are zero
whatever their digits, so no larger power is ever formed.
-/
def ofNumeral (negative : Bool) (digits length : Nat) (exponent : Int) : Binary64 :=
  if digits = 0 then .finite negative .zero
  else if 400 + (length : Int) < exponent then .infinite negative
  else if exponent < -400 - (length : Int) then .finite negative .zero
  else ofDecimal negative digits exponent

/-- Reads a literal without its sign. -/
def unsigned? (negative : Bool) (text : List Char) : Option Binary64 :=
  let word := text.map Char.toLower
  if word = "inf".toList || word = "infinity".toList then some (.infinite negative)
  else if word = "nan".toList then some .nan
  else
    let (whole, rest) := takeDigits text
    let (part, rest) := match rest with
      | '.' :: more => takeDigits more
      | _ => ([], rest)
    if whole.isEmpty && part.isEmpty then none
    else (exponent? rest).map fun exponent =>
      let digits := whole ++ part
      ofNumeral negative (natOfDigits digits) digits.length (exponent - part.length)

/-- Reads a number literal, the whole text or nothing. -/
def ofLiteral? (text : List Char) : Option Binary64 :=
  let (negative, rest) := takeSign text
  unsigned? negative rest

end Binary64

end ThroughputPlot
