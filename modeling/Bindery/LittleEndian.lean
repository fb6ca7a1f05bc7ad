/-!
# Numbers as bytes

A number in so many bytes, lowest byte first. What does not fit is dropped; what fits is read back
(`toNat_ofNat`).
-/

namespace Bindery.LittleEndian

/-- The lowest bytes of a number. -/
def ofNat : Nat → Nat → List UInt8
  | 0, _ => []
  | width + 1, n => UInt8.ofNat n :: ofNat width (n / 256)

/-- The number that bytes make up. -/
def toNat : List UInt8 → Nat
  | [] => 0
  | b :: bytes => b.toNat + 256 * toNat bytes

/-- The least number that does not fit into so many bytes. -/
def limit : Nat → Nat
  | 0 => 1
  | width + 1 => 256 * limit width

@[simp] theorem length_ofNat (width n : Nat) : (ofNat width n).length = width := by
  induction width generalizing n with
  | zero => rfl
  | succ width ih => simp [ofNat, ih]

theorem toNat_ofNat (width n : Nat) (h : n < limit width) : toNat (ofNat width n) = n := by
  induction width generalizing n with
  | zero =>
    have : n = 0 := by simpa [limit] using h
    simp [ofNat, toNat, this]
  | succ width ih =>
    rw [limit] at h
    have := ih (n / 256) (by omega)
    simp only [ofNat, toNat, this, UInt8.toNat_ofNat']
    omega

end Bindery.LittleEndian
