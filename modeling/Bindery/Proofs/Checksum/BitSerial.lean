import Bindery.Checksum.OfFile
import Bindery.Proofs.Checksum.Register
import Mathlib.Control.Monad.Basic

/-!
# The table does what single bits do

A byte that reaches the register through the table leaves in it what its eight bits leave one by one
(`stepByte_eq_foldl`).  A running checksum depends on nothing but the bytes it was fed since it last began anew
(`Crc32.run_feed`), and the checksum of a file on its bytes alone, however the requests for them end.  So both are the
checksum bit by bit (`streamed_checksums_are_bit_serial`).
-/

namespace Bindery.Checksum

/-! ### Bytes -/

private theorem get_ofFn {n : Nat} {α : Type} (f : Fin n → α) (i : Fin n) : (Vector.ofFn f).get i = f i := by
  simp only [Vector.get, Vector.toArray_ofFn, Array.getElem_ofFn]
  rfl

/-- A byte reaches the register as a word, and eight bits leave it. -/
theorem stepByte_eq (r : UInt32) (b : UInt8) : stepByte r b = shiftBits 8 (r ^^^ b.toUInt32) := by
  have htable (c : UInt8) : table.get c.toFin = shiftBits 8 c.toUInt32 := by
    rw [table, get_ofFn]
    show shiftBits 8 (UInt32.ofNat c.toNat) = _
    rw [UInt32.ofNat_uInt8ToNat]
  have hb : b.toUInt32 >>> 8 = 0 := by
    apply UInt32.toNat_inj.1
    have hlt := b.toNat_lt
    rw [UInt32.toNat_shiftRight, show (8 : UInt32).toNat % 32 = 8 from rfl, Nat.shiftRight_eq_div_pow,
      UInt8.toNat_toUInt32]
    exact Nat.div_eq_of_lt hlt
  rw [stepByte, htable, shiftBits_eight (r ^^^ b.toUInt32), UInt32.shiftRight_xor, hb, UInt32.xor_zero,
    UInt32.toUInt8_xor, UInt8.toUInt8_toUInt32]

theorem length_bitsOfByte (b : UInt8) : (bitsOfByte b).length = 8 := by
  rw [bitsOfByte, List.length_map, List.length_range]

theorem wordOfBits_bitsOfByte (b : UInt8) : wordOfBits (bitsOfByte b) = b.toUInt32 := by
  have hall : ∀ i : Fin 256, wordOfBits (bitsOfByte (UInt8.ofFin i)) = (UInt8.ofFin i).toUInt32 := by
    decide +kernel
  exact hall b.toFin

theorem stepByte_eq_foldl (r : UInt32) (b : UInt8) : stepByte r b = (bitsOfByte b).foldl stepBit r := by
  rw [stepByte_eq, foldl_stepBit (by rw [length_bitsOfByte]; decide), wordOfBits_bitsOfByte, length_bitsOfByte]

theorem foldl_stepByte (bytes : List UInt8) (r : UInt32) :
    bytes.foldl stepByte r = (bytes.flatMap bitsOfByte).foldl stepBit r := by
  induction bytes generalizing r with
  | nil => rfl
  | cons b bytes ih => rw [List.foldl_cons, List.flatMap_cons, List.foldl_append, stepByte_eq_foldl, ih]

theorem crc32_eq_bitSerial (bytes : List UInt8) : crc32 bytes = crc32BitSerial bytes :=
  congrArg (· ^^^ 0xFFFFFFFF) (foldl_stepByte bytes _)

/-! ### Calls -/

namespace Crc32

/-- What a checksum has been fed since it last began anew, after one more call. -/
def taken (bytes : List UInt8) : Call → List UInt8
  | .feed more => bytes ++ more
  | .reset => []

/-- The bytes that calls feed to a checksum after the last reset among them. -/
def sinceReset (calls : List Call) : List UInt8 := calls.foldl taken []

theorem after_feed (bytes : List UInt8) (call : Call) :
    (start.feed bytes).after call = start.feed (taken bytes call) := by
  cases call with
  | feed more => exact (feed_append start bytes more).symm
  | reset => rfl

theorem run_feed (bytes : List UInt8) (calls : List Call) :
    (start.feed bytes).run calls = start.feed (calls.foldl taken bytes) := by
  induction calls generalizing bytes with
  | nil => rfl
  | cons call calls ih =>
    show ((start.feed bytes).after call).run calls = _
    rw [after_feed, ih, List.foldl_cons]

end Crc32

/-- After any calls a running checksum is the one bit by bit of what it was fed since the last reset, and a file's is
the checksum of all its bytes, whether the requests for them are interrupted, end early, or do neither. -/
theorem streamed_checksums_are_bit_serial :
    (∀ calls, (Crc32.start.run calls).value = crc32BitSerial (Crc32.sinceReset calls)) ∧
      ∀ (readings : List Reading) (fs : FileSystem) (p : Path) (bytes : List UInt8),
        (∀ fault, .failed fault ∉ readings) → fs.read p = .ok bytes →
          ofFileReading readings fs p = .ok (crc32 bytes) ∧ crc32 bytes = crc32BitSerial bytes := by
  refine ⟨fun calls => ?_, fun readings fs p bytes hreadings hread => ⟨?_, crc32_eq_bitSerial bytes⟩⟩
  · have hrun := Crc32.run_feed [] calls
    rw [Crc32.feed_nil] at hrun
    rw [hrun]
    exact crc32_eq_bitSerial _
  · rw [ofFileReading_eq hreadings, hread]

/-- Three bytes come in two parts, with interruptions before each of them and at the end of the file. -/
theorem checksum_of_interrupted_file :
    ∃ fs : FileSystem, fs.read (.ofString "a") = .ok [1, 2, 3] ∧
      ofFileReading [.interrupted, .short 2 (by decide), .interrupted, .short 9 (by decide), .interrupted] fs
        (.ofString "a") = .ok (crc32 [1, 2, 3]) := by
  let fs := (FileSystem.bare ⟨0⟩).addFile [Text.encode "a"] ⟨.ofList [1, 2, 3], ⟨0⟩⟩
  have hread : fs.read (.ofString "a") = .ok [1, 2, 3] := by decide +kernel
  exact ⟨fs, hread, (streamed_checksums_are_bit_serial.2 _ fs _ _ (by simp) hread).1⟩

end Bindery.Checksum
