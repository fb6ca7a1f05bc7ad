import Bindery.Checksum.Basic

/-!
# The checksum bit by bit

The defining form of the cyclic redundancy check: the bits of the message, lowest bit of each byte
first, enter the register one at a time. No table takes part.
-/

namespace Bindery.Checksum

/-- The bits of a byte, lowest first. -/
def bitsOfByte (b : UInt8) : List Bool :=
  (List.range 8).map fun i => b.toNat.testBit i

/-- One message bit meets the low end of the register. -/
def stepBit (r : UInt32) (bit : Bool) : UInt32 :=
  if (r &&& 1 = 1) ≠ (bit = true) then (r >>> 1) ^^^ polynomial else r >>> 1

/-- The checksum of a byte string, one bit at a time. -/
def crc32BitSerial (bytes : List UInt8) : UInt32 :=
  (bytes.flatMap bitsOfByte).foldl stepBit 0xFFFFFFFF ^^^ 0xFFFFFFFF

end Bindery.Checksum
