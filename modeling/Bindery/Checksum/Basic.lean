/-!
# CRC-32 checksums

The 32-bit cyclic redundancy check of the reflected polynomial `0xEDB88320`, with the register
starting at all ones and complemented at the end: the checksum of zip, PNG and gzip.

* `shiftBit` takes the register through one bit, `table` holds eight such shifts of every byte;
* `Crc32` is the running checksum. Feeding it in pieces is feeding it the concatenation
  (`Crc32.feed_append`), and `Crc32.run` takes it through calls that feed it or begin it anew.
-/

namespace Bindery.Checksum

/-- The generator polynomial, lowest power in the highest bit. -/
def polynomial : UInt32 := 0xEDB88320

/-- One bit leaves the register at its low end. -/
def shiftBit (r : UInt32) : UInt32 :=
  if r &&& 1 = 1 then (r >>> 1) ^^^ polynomial else r >>> 1

/-- `n` bits leave the register. -/
def shiftBits : Nat → UInt32 → UInt32
  | 0, r => r
  | n + 1, r => shiftBits n (shiftBit r)

/-- The register after eight shifts, for every starting byte. -/
def table : Vector UInt32 256 := Vector.ofFn fun b => shiftBits 8 (UInt32.ofNat b)

/-- Takes the register over a whole byte through the table. -/
def stepByte (r : UInt32) (b : UInt8) : UInt32 :=
  table.get (r.toUInt8 ^^^ b).toFin ^^^ (r >>> 8)

/-- A checksum under way. -/
structure Crc32 where
  register : UInt32
  deriving DecidableEq

namespace Crc32

def start : Crc32 := ⟨0xFFFFFFFF⟩

def feed (c : Crc32) (bytes : List UInt8) : Crc32 := ⟨bytes.foldl stepByte c.register⟩

/-- The checksum of everything taken in so far. -/
def value (c : Crc32) : UInt32 := c.register ^^^ 0xFFFFFFFF

@[simp] theorem feed_nil (c : Crc32) : c.feed [] = c := rfl

theorem feed_append (c : Crc32) (xs ys : List UInt8) : c.feed (xs ++ ys) = (c.feed xs).feed ys := by
  simp [feed]

/-- What can be done with a checksum under way. -/
inductive Call where
  | feed (bytes : List UInt8)
  | reset
  deriving DecidableEq

def after (c : Crc32) : Call → Crc32
  | .feed bytes => c.feed bytes
  | .reset => start

def run (c : Crc32) (calls : List Call) : Crc32 := calls.foldl after c

end Crc32

def crc32 (bytes : List UInt8) : UInt32 := (Crc32.start.feed bytes).value

end Bindery.Checksum
