import ThroughputPlot.Binary64.Shortest

/-!
# Number layouts

A number is written with its shortest digits.  A layout says which numbers are
written with all their places and which with an exponent, and how special values
are spelled.
-/

namespace ThroughputPlot

structure NumberLayout where
  /-- The least exponent of a first digit that is written with all places, if there is one. -/
  lowestPlain : Option Int
  /-- The greatest exponent of a first digit that is written with all places, if there is one. -/
  highestPlain : Option Int
  /-- Whether a whole number written with all places keeps `.0`. -/
  keepsPoint : Bool
  /-- Whether a positive exponent has a plus sign. -/
  plusExponent : Bool
  /-- Which neighbour a value between two shortest decimals takes. -/
  tie : Tie
  /-- The spelling of not-a-number. -/
  nanText : String
  /-- The spelling of infinity, without its sign. -/
  infinityText : String

/-- Whether an exponent lies within bounds, either of which may be missing. -/
def isPlainExponent (layout : NumberLayout) (exponent : Int) : Bool :=
  layout.lowestPlain.all (· ≤ exponent) && layout.highestPlain.all (exponent ≤ ·)

def trimZeros (digits : List Char) : List Char :=
  (digits.reverse.dropWhile (· = '0')).reverse

namespace NumberLayout

/-- Digits with the first at the given exponent, written with all places. -/
def plain (layout : NumberLayout) (digits : List Char) (exponent : Int) : List Char :=
  if exponent < 0 then
    '0' :: '.' :: (List.replicate (-exponent - 1).toNat '0' ++ digits)
  else
    let places := exponent.toNat + 1
    if digits.length ≤ places then
      digits ++ List.replicate (places - digits.length) '0' ++
        (if layout.keepsPoint then ['.', '0'] else [])
    else digits.take places ++ '.' :: digits.drop places

/-- Digits with the first at the given exponent, written with an exponent. -/
def scientific (layout : NumberLayout) (digits : List Char) (exponent : Int) : List Char :=
  let mantissa := match digits with
    | first :: second :: rest => first :: '.' :: second :: rest
    | _ => digits
  let sign := if exponent < 0 then ['-'] else if layout.plusExponent then ['+'] else []
  mantissa ++ 'e' :: (sign ++ Nat.toDigits 10 exponent.natAbs)

def magnitude (layout : NumberLayout) (m : Magnitude) : List Char :=
  if m.rank = 0 then layout.plain ['0'] 0
  else
    let decimal := m.shortest layout.tie
    let all := Nat.toDigits 10 decimal.digits
    let exponent := decimal.exponent + (all.length : Int) - 1
    let digits := trimZeros all
    if isPlainExponent layout exponent then layout.plain digits exponent
    else layout.scientific digits exponent

def write (layout : NumberLayout) (x : Binary64) : String :=
  match x with
  | .nan => layout.nanText
  | .infinite s => (if s then "-" else "") ++ layout.infinityText
  | .finite s m => String.ofList ((if s then ['-'] else []) ++ layout.magnitude m)

end NumberLayout

/-- Numbers in plan files: all places from `10 ^ (-5)` up to below `10 ^ 16`. -/
def planNumber : NumberLayout :=
  ⟨some (-5), some 15, true, true, .toEven, "null", "null"⟩

/-- Numbers in log lines: all places from `10 ^ (-4)` up to below `10 ^ 16`. -/
def logNumber : NumberLayout :=
  ⟨some (-4), some 15, true, false, .up, "NaN", "inf"⟩

/-- Numbers in messages: always all places, and no point without a fraction. -/
def messageNumber : NumberLayout :=
  ⟨none, none, false, false, .up, "NaN", "inf"⟩

end ThroughputPlot
