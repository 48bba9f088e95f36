/-!
# Numbers in bytes and bits

Containers store numbers with the least significant byte first, and compressed data packs numbers
into bits with the least significant bit first. A check sum of 32 bits guards the content of an entry.
-/

namespace Gridfill.Archive

/-- A stretch of bits, in the order of reading. -/
abbrev Bits := List Bool

/-- The bits of a byte, the least significant first. -/
def byteBits (b : UInt8) : Bits := (List.range 8).map fun i => b.toNat.testBit i

/-- The bits of bytes. -/
def bitsOf (bytes : List UInt8) : Bits := bytes.flatMap byteBits

/-- A number of the given width at the front of a stretch of bits, and the rest; nothing when the bits
run out. -/
def takeNumber : Nat → Bits → Option (Nat × Bits)
  | 0, bits => some (0, bits)
  | _ + 1, [] => none
  | width + 1, b :: bits =>
    (takeNumber width bits).map fun r => (b.toNat + 2 * r.1, r.2)

/-- The number that bytes spell, the least significant first. -/
def littleEndian (bytes : List UInt8) : Nat := bytes.foldr (fun b n => b.toNat + 256 * n) 0

/-- The number in the `width` bytes from an offset on. -/
def numberAt (bytes : List UInt8) (offset width : Nat) : Nat :=
  littleEndian ((bytes.drop offset).take width)

/-- One step of the check sum for one bit. -/
def checksumBit (c : UInt32) : UInt32 :=
  if c &&& 1 = 1 then (c >>> 1) ^^^ 0xEDB88320 else c >>> 1

/-- One step of the check sum for one byte. -/
def checksumByte (c : UInt32) (b : UInt8) : UInt32 :=
  (List.range 8).foldl (fun c _ => checksumBit c) (c ^^^ b.toUInt32)

/-- The check sum of bytes. -/
def checksum (bytes : List UInt8) : UInt32 :=
  bytes.foldl checksumByte 0xFFFFFFFF ^^^ 0xFFFFFFFF

end Gridfill.Archive
