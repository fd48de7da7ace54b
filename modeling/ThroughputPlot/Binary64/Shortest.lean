import ThroughputPlot.Binary64.Basic

/-!
# Shortest decimals

The shortest decimal of a magnitude is the one with the fewest digits among those
that read back as the magnitude, and the nearest of these.  For each number of digits
only the two neighbours on that decimal grid can be the nearest, so they alone are
tried.
-/

namespace ThroughputPlot

/-- The decimal `digits * 10 ^ exponent`. -/
structure Decimal where
  digits : Nat
  exponent : Int
deriving DecidableEq

/-- What becomes of a value exactly between two neighbours. -/
inductive Tie where
  | toEven
  | up
deriving DecidableEq

def digitCount (n : Nat) : Nat := (Nat.toDigits 10 n).length

namespace Magnitude

/-- The exponent of the first decimal digit of a magnitude that is not zero. -/
def leadingExponent (m : Magnitude) : Int :=
  if unitsOfOne ≤ m.units then (digitCount (m.units / unitsOfOne) : Int) - 1
  else -(digitCount ((unitsOfOne - 1) / m.units) : Int)

/-- Whether a decimal rounds to the magnitude. -/
def isReadBack (m : Magnitude) (d : Decimal) : Bool :=
  nearestRank (d.digits * unitsOfOne * powerOfTen d.exponent.toNat)
    (powerOfTen (-d.exponent).toNat) = m.rank

/-- The nearest decimal with its last digit at the given exponent that reads back, if any. -/
def decimalAt? (m : Magnitude) (tie : Tie) (exponent : Int) : Option Decimal :=
  let num := m.units * powerOfTen (-exponent).toNat
  let den := unitsOfOne * powerOfTen exponent.toNat
  let below : Decimal := ⟨num / den, exponent⟩
  let above : Decimal := ⟨num / den + 1, exponent⟩
  let twice := 2 * (num % den)
  let isBelowNearer :=
    twice < den || (twice = den && tie = .toEven && below.digits % 2 = 0)
  let first := if isBelowNearer then below else above
  let second := if isBelowNearer then above else below
  if m.isReadBack first then some first
  else if m.isReadBack second then some second
  else none

/-- The shortest decimal that reads back; seventeen digits always suffice. -/
def shortest (m : Magnitude) (tie : Tie) : Decimal :=
  let leading := m.leadingExponent
  let found := (List.range 17).findSome? fun k : Nat => m.decimalAt? tie (leading - k)
  found.getD ⟨0, 0⟩

end Magnitude

end ThroughputPlot
