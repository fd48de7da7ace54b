import ThroughputPlot.Powers

/-!
# Binary64 numbers

A finite magnitude is given by its *rank*: its place in the increasing list of all
finite magnitudes, which is also its bit pattern without the sign.  Every magnitude
is a whole number of *units* of `2 ^ (-1074)`, the least positive one, so sums, products
and quotients are exact on natural numbers and each operation rounds once, to the nearest
rank and to the even one on a tie.  A rank past the last stands for infinity.
-/

namespace ThroughputPlot

/-- The number of ranks between a power of two and the next. -/
def ranksPerDoubling : Nat := powerOfTwo 52

/-- The number of finite magnitudes, and the rank that stands for infinity. -/
def rankCount : Nat := 2047 * ranksPerDoubling

/-- A finite magnitude, by its rank. -/
structure Magnitude where
  rank : Nat
  rank_lt : rank < rankCount
deriving DecidableEq

/-- A binary64 number; all not-a-number values are one value here. -/
inductive Binary64 where
  | nan
  | infinite (negative : Bool)
  | finite (negative : Bool) (magnitude : Magnitude)
deriving DecidableEq

/-! ## Units and rounding -/

/-- The number of units in the number one. -/
def unitsOfOne : Nat := powerOfTwo 1074

/-- The magnitude of a rank as a whole number of units. -/
def unitsOfRank (rank : Nat) : Nat :=
  if rank < ranksPerDoubling then rank
  else
    (ranksPerDoubling + rank % ranksPerDoubling) * powerOfTwo (rank / ranksPerDoubling - 1)

/-- The natural number nearest to a quotient; a tie goes to the even neighbour. -/
def roundHalfEven (num den : Nat) : Nat :=
  let quotient := num / den
  let twice := 2 * (num % den)
  if twice < den then quotient
  else if den < twice then quotient + 1
  else if quotient % 2 = 0 then quotient
  else quotient + 1

/--
The rank nearest to `num / den` units.  Magnitudes from `2 ^ (52 + k)` to
`2 ^ (53 + k)` units are the multiples of `2 ^ k` there, and the rank of `m * 2 ^ k`
is `k * 2 ^ 52 + m`, also when rounding carries `m` up to `2 ^ 53`.
-/
def nearestRank (num den : Nat) : Nat :=
  let shift := (num / den).log2 - 52
  shift * ranksPerDoubling + roundHalfEven num (den * powerOfTwo shift)

namespace Magnitude

def units (m : Magnitude) : Nat := unitsOfRank m.rank

def zero : Magnitude := ⟨0, by decide⟩

def greatest : Magnitude := ⟨rankCount - 1, by decide⟩

end Magnitude

namespace Binary64

/-- The number of a sign and a rank; a rank that is not finite gives an infinity. -/
def ofRank (negative : Bool) (rank : Nat) : Binary64 :=
  if h : rank < rankCount then .finite negative ⟨rank, h⟩ else .infinite negative

/-- The number nearest to `num / den` units, with the given sign. -/
def ofUnitRatio (negative : Bool) (num den : Nat) : Binary64 :=
  ofRank negative (nearestRank num den)

def withSign (negative : Bool) (n : Nat) : Int :=
  if negative then -(n : Int) else n

/-- The number nearest to a whole number of units; zero takes the given sign. -/
def ofUnits (negativeZero : Bool) (units : Int) : Binary64 :=
  if units = 0 then .finite negativeZero .zero
  else ofUnitRatio (units < 0) units.natAbs 1

/-- The number nearest to `digits * 10 ^ exponent`, with the given sign. -/
def ofDecimal (negative : Bool) (digits : Nat) (exponent : Int) : Binary64 :=
  ofUnitRatio negative (digits * unitsOfOne * powerOfTen exponent.toNat)
    (powerOfTen (-exponent).toNat)

def zero : Binary64 := .finite false .zero

def one : Binary64 := ofUnitRatio false unitsOfOne 1

def greatest : Binary64 := .finite false .greatest

def least : Binary64 := .finite true .greatest

/-! ## Arithmetic -/

/-- Whether a number is neither infinite nor not-a-number. -/
def isFinite : Binary64 → Bool
  | .finite _ _ => true
  | _ => false

/-- The number without its sign. -/
def abs : Binary64 → Binary64
  | .nan => .nan
  | .infinite _ => .infinite false
  | .finite _ m => .finite false m

def neg : Binary64 → Binary64
  | .nan => .nan
  | .infinite s => .infinite (!s)
  | .finite s m => .finite (!s) m

/-- The rounded sum; a sum of zero is negative only when both terms are. -/
def add : Binary64 → Binary64 → Binary64
  | .nan, _ => .nan
  | _, .nan => .nan
  | .infinite s, .infinite t => if s = t then .infinite s else .nan
  | .infinite s, .finite _ _ => .infinite s
  | .finite _ _, .infinite t => .infinite t
  | .finite s m, .finite t n =>
    ofUnits (s && t) (withSign s m.units + withSign t n.units)

def sub (x y : Binary64) : Binary64 := x.add y.neg

def mul : Binary64 → Binary64 → Binary64
  | .nan, _ => .nan
  | _, .nan => .nan
  | .infinite s, .infinite t => .infinite (s ^^ t)
  | .infinite s, .finite t n => if n.rank = 0 then .nan else .infinite (s ^^ t)
  | .finite s m, .infinite t => if m.rank = 0 then .nan else .infinite (s ^^ t)
  | .finite s m, .finite t n => ofUnitRatio (s ^^ t) (m.units * n.units) unitsOfOne

/-- The rounded quotient; zero goes into other numbers without end, but not into itself. -/
def div : Binary64 → Binary64 → Binary64
  | .nan, _ => .nan
  | _, .nan => .nan
  | .infinite _, .infinite _ => .nan
  | .infinite s, .finite t _ => .infinite (s ^^ t)
  | .finite s _, .infinite t => .finite (s ^^ t) .zero
  | .finite s m, .finite t n =>
    if n.rank = 0 then if m.rank = 0 then .nan else .infinite (s ^^ t)
    else ofUnitRatio (s ^^ t) (m.units * unitsOfOne) n.units

instance : Neg Binary64 := ⟨neg⟩
instance : Add Binary64 := ⟨add⟩
instance : Sub Binary64 := ⟨sub⟩
instance : Mul Binary64 := ⟨mul⟩
instance : Div Binary64 := ⟨div⟩

/-! ## Order -/

/-- The place of a number in the numeric order; both zeros share one place. -/
def place : Binary64 → Option Int
  | .nan => none
  | .infinite s => some (withSign s rankCount)
  | .finite s m => some (withSign s m.rank)

/-- Numeric strict order, false when either side is not a number. -/
def less (x y : Binary64) : Bool :=
  match x.place, y.place with
  | some i, some j => i < j
  | _, _ => false

/-- Numeric equality: the zeros are equal, and not-a-number equals nothing. -/
def same (x y : Binary64) : Bool :=
  match x.place, y.place with
  | some i, some j => i = j
  | _, _ => false

/-- The lesser of two numbers, the first one when they are equal; not-a-number gives way. -/
def min (x y : Binary64) : Binary64 :=
  if y.less x || x = .nan then y else x

/-- The greater of two numbers, the first one when they are equal; not-a-number gives way. -/
def max (x y : Binary64) : Binary64 :=
  if x.less y || x = .nan then y else x

/-! ## Bit patterns -/

def signBit (negative : Bool) : Nat := if negative then powerOfTwo 63 else 0

/-- The 64-bit pattern: the sign bit above the rank. -/
def toBits : Binary64 → Nat
  | .nan => rankCount + powerOfTwo 51
  | .infinite s => signBit s + rankCount
  | .finite s m => signBit s + m.rank

def ofBits (bits : Nat) : Binary64 :=
  let rank := bits % powerOfTwo 63
  if rankCount < rank then .nan else ofRank (powerOfTwo 63 ≤ bits) rank

end Binary64

end ThroughputPlot
