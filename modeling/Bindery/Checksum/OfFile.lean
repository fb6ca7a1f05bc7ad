import Bindery.Checksum.Basic
import Bindery.FileSystem.Operations

/-!
# Checksums of files

A file is read through a buffer of fixed size. A request for more of its bytes may be interrupted,
and is then made again, or end with fewer bytes than there are; where it ends with none, the file is
at its end (`Crc32.readThrough`).
-/

namespace Bindery.Checksum

/-- A file that has no checksum because it could not be read. -/
structure Unreadable where
  path : Path
  fault : Fault
  deriving DecidableEq

def Unreadable.message (e : Unreadable) : String :=
  "cannot checksum " ++ e.path.display ++ ": " ++ e.fault.message

/-- How a request for bytes of an open file ends. -/
inductive Reading where
  | interrupted
  /-- With so many bytes at the most. -/
  | short (most : Nat) (pos : 0 < most)
  | failed (fault : Fault)

/-- The number of bytes that a request asks for. -/
def bufferSize : Nat := 65536

namespace Crc32

/-- Takes in whole buffers, so many at the most, until no bytes are left. -/
def readWhole (c : Crc32) : Nat → List UInt8 → Crc32
  | 0, _ => c
  | n + 1, left =>
    if left = [] then c
    else (c.feed (left.take bufferSize)).readWhole n (left.drop bufferSize)

/-- Takes in the bytes that are left of an open file. The first requests for them end as given, the
later ones with whole buffers. -/
def readThrough (c : Crc32) : List Reading → List UInt8 → Except Fault Crc32
  | [], left => .ok (c.readWhole left.length left)
  | .interrupted :: readings, left => c.readThrough readings left
  | .failed fault :: _, _ => .error fault
  | .short most _ :: readings, left =>
    if left = [] then .ok c
    else
      (c.feed (left.take (min most bufferSize))).readThrough readings
        (left.drop (min most bufferSize))

theorem feed_take_drop (c : Crc32) (n : Nat) (bytes : List UInt8) :
    (c.feed (bytes.take n)).feed (bytes.drop n) = c.feed bytes := by
  rw [← feed_append, List.take_append_drop]

theorem readWhole_eq (c : Crc32) {n : Nat} {left : List UInt8} (h : left.length ≤ n) :
    c.readWhole n left = c.feed left := by
  induction n generalizing c left with
  | zero =>
    obtain rfl := List.length_eq_zero_iff.1 (Nat.le_zero.1 h)
    rfl
  | succ n ih =>
    unfold readWhole
    split
    · next hnil => rw [hnil, feed_nil]
    · have hlen : (left.drop bufferSize).length ≤ n := by
        rw [List.length_drop]
        unfold bufferSize
        omega
      rw [ih _ hlen, feed_take_drop]

/-- Unless a request fails, all bytes are taken in, however the requests end. -/
theorem readThrough_eq (c : Crc32) {readings : List Reading} (h : ∀ fault, .failed fault ∉ readings)
    (left : List UInt8) : c.readThrough readings left = .ok (c.feed left) := by
  induction readings generalizing c left with
  | nil => rw [readThrough, readWhole_eq c (Nat.le_refl _)]
  | cons reading readings ih =>
    have hrest : ∀ fault, .failed fault ∉ readings :=
      fun fault hf => h fault (List.mem_cons_of_mem _ hf)
    cases reading with
    | interrupted => exact ih c hrest left
    | failed fault => exact absurd List.mem_cons_self (h fault)
    | short most pos =>
      unfold readThrough
      split
      · next hnil => rw [hnil, feed_nil]
      · rw [ih _ hrest, feed_take_drop]

end Crc32

/-- The checksum of a file whose bytes are read as given. -/
def ofFileReading (readings : List Reading) (fs : FileSystem) (p : Path) :
    Except Unreadable UInt32 :=
  match fs.read p with
  | .error fault => .error ⟨p, fault⟩
  | .ok bytes =>
    match Crc32.start.readThrough readings bytes with
    | .ok c => .ok c.value
    | .error fault => .error ⟨p, fault⟩

/-- The checksum of a file that is always at hand. -/
def ofFile (fs : FileSystem) (p : Path) : Except Unreadable UInt32 := ofFileReading [] fs p

theorem ofFileReading_eq {readings : List Reading} (h : ∀ fault, .failed fault ∉ readings)
    (fs : FileSystem) (p : Path) :
    ofFileReading readings fs p =
      match fs.read p with
      | .ok bytes => .ok (crc32 bytes)
      | .error fault => .error ⟨p, fault⟩ := by
  unfold ofFileReading
  cases fs.read p with
  | error fault => rfl
  | ok bytes => simp only [Crc32.readThrough_eq _ h]; rfl

theorem ofFile_eq (fs : FileSystem) (p : Path) :
    ofFile fs p =
      match fs.read p with
      | .ok bytes => .ok (crc32 bytes)
      | .error fault => .error ⟨p, fault⟩ :=
  ofFileReading_eq (fun _ => List.not_mem_nil) fs p

end Bindery.Checksum
