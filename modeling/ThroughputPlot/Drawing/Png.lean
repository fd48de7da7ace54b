import ThroughputPlot.Drawing.Canvas

/-!
# PNG files

A canvas is written as a PNG file of eight bits for each of three colours.  The pixels
are stored without compression.
-/

namespace ThroughputPlot.Png

/-- A number as four bytes, the highest first. -/
def word (n : UInt32) : List UInt8 :=
  [(n >>> 24).toUInt8, (n >>> 16).toUInt8, (n >>> 8).toUInt8, n.toUInt8]

/-- A number as two bytes, the lowest first. -/
def shortWord (n : Nat) : List UInt8 := [UInt8.ofNat n, UInt8.ofNat (n / 256)]

/-- The polynomial of the cyclic redundancy check, its lowest power in the highest bit. -/
def checkPolynomial : UInt32 := 0xEDB88320

def checkBit (n : UInt32) : UInt32 :=
  if n &&& 1 = 1 then checkPolynomial ^^^ (n >>> 1) else n >>> 1

def checkByte (sum : UInt32) (b : UInt8) : UInt32 :=
  (List.range 8).foldl (fun n _ => checkBit n) (sum ^^^ b.toUInt32)

def redundancy (content : ByteArray) : UInt32 :=
  content.foldl checkByte 0xFFFFFFFF ^^^ 0xFFFFFFFF

/-- One byte of the Adler sum: the sum of the bytes and the sum of these sums. -/
def adlerByte (sums : Nat × Nat) (b : UInt8) : Nat × Nat :=
  let low := (sums.1 + b.toNat) % 65521
  (low, (sums.2 + low) % 65521)

def adler (content : ByteArray) : UInt32 :=
  let (low, high) := content.foldl adlerByte (1, 0)
  UInt32.ofNat (high * 65536 + low)

def bytes (content : List UInt8) : ByteArray := ⟨content.toArray⟩

/-- A chunk: its length, its name, its content and its check. -/
def chunk (name : String) (content : ByteArray) : ByteArray :=
  let checked := name.toUTF8 ++ content
  bytes (word (UInt32.ofNat content.size)) ++ checked ++ bytes (word (redundancy checked))

def blockSize : Nat := 65535

/-- A stored block from a place on; the last one is marked. -/
def block (content : ByteArray) (start : Nat) : ByteArray :=
  let part := content.extract start (start + blockSize)
  let isLast : UInt8 := if content.size ≤ start + blockSize then 1 else 0
  bytes (isLast :: (shortWord part.size ++ shortWord (blockSize - part.size))) ++ part

/-- Bytes as a stream without compression. -/
def stored (content : ByteArray) : ByteArray :=
  let count := max 1 ((content.size + blockSize - 1) / blockSize)
  let blocks := (List.range count).foldl
    (fun written k => written ++ block content (k * blockSize)) (bytes [0x78, 0x01])
  blocks ++ bytes (word (adler content))

/-- The pixels of a canvas, with a zero before each row. -/
def rows (canvas : Canvas) : ByteArray :=
  (List.range canvas.height).foldl
    (fun written row =>
      (canvas.pixels.extract (row * canvas.width) ((row + 1) * canvas.width)).foldl
        (fun written (r, g, b) => ((written.push r).push g).push b) (written.push 0))
    (ByteArray.emptyWithCapacity (canvas.height * (3 * canvas.width + 1)))

/-- The size of a canvas and the kind of its pixels. -/
def header (canvas : Canvas) : ByteArray :=
  bytes (word (UInt32.ofNat canvas.width) ++ word (UInt32.ofNat canvas.height) ++ [8, 2, 0, 0, 0])

def encode (canvas : Canvas) : ByteArray :=
  bytes [0x89, 0x50, 0x4E, 0x47, 0x0D, 0x0A, 0x1A, 0x0A] ++
    chunk "IHDR" (header canvas) ++ chunk "IDAT" (stored (rows canvas)) ++
    chunk "IEND" ByteArray.empty

end ThroughputPlot.Png
