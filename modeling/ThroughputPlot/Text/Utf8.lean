/-!
# UTF-8

Bytes are cut into encoded characters and, where no character can be read, into the
longest pieces that a longer text could still have continued.  Strict reading refuses
such pieces; lossy reading puts the replacement character for each.
-/

namespace ThroughputPlot

abbrev Bytes := List UInt8

namespace Utf8

def isContinuation (b : UInt8) : Bool := 0x80 ≤ b && b ≤ 0xBF

/-- Whether the second byte of three can follow the first. -/
def isSecondOfThree (a b : UInt8) : Bool :=
  if a = 0xE0 then 0xA0 ≤ b && b ≤ 0xBF
  else if a = 0xED then 0x80 ≤ b && b ≤ 0x9F
  else isContinuation b

/-- Whether the second byte of four can follow the first. -/
def isSecondOfFour (a b : UInt8) : Bool :=
  if a = 0xF0 then 0x90 ≤ b && b ≤ 0xBF
  else if a = 0xF4 then 0x80 ≤ b && b ≤ 0x8F
  else isContinuation b

/-- The low six bits of a continuation byte. -/
def low (b : UInt8) : Nat := b.toNat % 64

/--
The character that a byte and those after it encode, or `none` if they encode none, and
the number of the later bytes that belong to it or to the broken piece.
-/
def leading (a : UInt8) (rest : Bytes) : Option Char × Nat :=
  if a < 0x80 then (some (Char.ofNat a.toNat), 0)
  else if 0xC2 ≤ a && a ≤ 0xDF then
    match rest with
    | b :: _ =>
      if isContinuation b then (some (Char.ofNat (a.toNat % 32 * 64 + low b)), 1) else (none, 0)
    | [] => (none, 0)
  else if 0xE0 ≤ a && a ≤ 0xEF then
    match rest with
    | b :: c :: _ =>
      if !isSecondOfThree a b then (none, 0)
      else if !isContinuation c then (none, 1)
      else (some (Char.ofNat (a.toNat % 16 * 4096 + low b * 64 + low c)), 2)
    | [b] => (none, if isSecondOfThree a b then 1 else 0)
    | [] => (none, 0)
  else if 0xF0 ≤ a && a ≤ 0xF4 then
    match rest with
    | b :: c :: d :: _ =>
      if !isSecondOfFour a b then (none, 0)
      else if !isContinuation c then (none, 1)
      else if !isContinuation d then (none, 2)
      else
        (some (Char.ofNat (a.toNat % 8 * 262144 + low b * 4096 + low c * 64 + low d)), 3)
    | [b, c] =>
      (none, if !isSecondOfFour a b then 0 else if !isContinuation c then 1 else 2)
    | [b] => (none, if isSecondOfFour a b then 1 else 0)
    | [] => (none, 0)
  else (none, 0)

/-- The characters of bytes of which the first `skip` are dropped. -/
def decodeFrom : Nat → Bytes → List (Option Char)
  | _, [] => []
  | skip + 1, _ :: rest => decodeFrom skip rest
  | 0, a :: rest => (leading a rest).1 :: decodeFrom (leading a rest).2 rest

/-- The characters that bytes encode, with `none` for each piece that encodes none. -/
def decode (bytes : Bytes) : List (Option Char) := decodeFrom 0 bytes

/-- Lossy reading: the replacement character stands for each piece that encodes nothing. -/
def decodeLossy (bytes : Bytes) : List Char :=
  (decode bytes).map (·.getD '\uFFFD')

/-- Strict reading: nothing unless every byte belongs to an encoded character. -/
def decode? (bytes : Bytes) : Option (List Char) :=
  (decode bytes).mapM id

def encode (text : String) : Bytes := text.toUTF8.toList

end Utf8

end ThroughputPlot
