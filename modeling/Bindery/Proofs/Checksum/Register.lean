import Bindery.Checksum.BitSerial
import Mathlib.Algebra.Group.Nat.Defs

/-!
# The register of the checksum

A shift of the register respects exclusive or (`shiftBit_xor`), and no two registers become one by it, since the
polynomial's highest bit is set and shows which bit has left (`shiftBits_inj`).  Up to 32 bits of a message therefore
reach the register as one word would, and leave it one by one (`foldl_stepBit`).
-/

namespace Bindery.Checksum

variable {r s w : UInt32}

/-! ### One shift -/

/-- The bit that leaves a register next. -/
def lowBit (r : UInt32) : Bool := r.toNat.testBit 0

private theorem and_one_eq_one : r &&& 1 = 1 ↔ lowBit r = true := by
  rw [← UInt32.toNat_inj, UInt32.toNat_and, lowBit, Nat.testBit_zero, decide_eq_true_eq]
  exact (Nat.and_one_is_mod r.toNat) ▸ Iff.rfl

private theorem lowBit_xor (r s : UInt32) : lowBit (r ^^^ s) = (lowBit r ^^ lowBit s) := by
  simp only [lowBit, UInt32.toNat_xor, Nat.testBit_xor]

private theorem lowBit_toUInt32 (bit : Bool) : lowBit bit.toUInt32 = bit := by cases bit <;> rfl

private theorem toNat_shiftRight_one (r : UInt32) : (r >>> 1).toNat = r.toNat / 2 := by
  rw [UInt32.toNat_shiftRight, show (1 : UInt32).toNat % 32 = 1 from rfl, Nat.shiftRight_eq_div_pow, Nat.pow_one]

private theorem toNat_shiftLeft_one (r : UInt32) : (r <<< 1).toNat = 2 * r.toNat % 2 ^ 32 := by
  rw [UInt32.toNat_shiftLeft, show (1 : UInt32).toNat % 32 = 1 from rfl, Nat.shiftLeft_eq, Nat.pow_one, Nat.mul_comm]

private theorem lowBit_shiftLeft (r : UInt32) : lowBit (r <<< 1) = false := by
  rw [lowBit, toNat_shiftLeft_one, Nat.testBit_zero, decide_eq_false_iff_not]
  omega

theorem shiftBit_eq (r : UInt32) : shiftBit r = (r >>> 1) ^^^ (if lowBit r then polynomial else 0) := by
  unfold shiftBit
  simp only [and_one_eq_one]
  split
  · rfl
  · rw [UInt32.xor_zero]

theorem shiftBit_xor (r s : UInt32) : shiftBit (r ^^^ s) = shiftBit r ^^^ shiftBit s := by
  have hmask : (if lowBit (r ^^^ s) then polynomial else 0) =
      (if lowBit r then polynomial else 0) ^^^ (if lowBit s then polynomial else 0) := by
    rw [lowBit_xor]
    cases lowBit r <;> cases lowBit s <;> simp
  rw [shiftBit_eq, shiftBit_eq, shiftBit_eq, hmask, UInt32.shiftRight_xor]
  ac_rfl

private theorem toNat_shiftBit_of_even (h : r.toNat % 2 = 0) : (shiftBit r).toNat = r.toNat / 2 := by
  have hlow : lowBit r = false := by
    rw [lowBit, Nat.testBit_zero, h]
    rfl
  rw [shiftBit_eq, hlow, if_neg (by simp), UInt32.xor_zero, toNat_shiftRight_one]

private theorem shiftBit_shiftLeft (h : w.toNat < 2 ^ 31) : shiftBit (w <<< 1) = w := by
  rw [shiftBit_eq, lowBit_shiftLeft, if_neg (by simp), UInt32.xor_zero, ← UInt32.toNat_inj, toNat_shiftRight_one,
    toNat_shiftLeft_one]
  omega

private theorem shiftBit_eq_zero (h : shiftBit r = 0) : r = 0 := by
  have hlt := r.toNat_lt
  rw [shiftBit_eq, UInt32.xor_eq_zero_iff] at h
  have hval := congrArg UInt32.toNat h
  rw [toNat_shiftRight_one] at hval
  cases hlow : lowBit r with
  | true =>
    -- the polynomial's highest bit is set, and that of a register that has moved down is not
    rw [hlow, if_pos rfl, show polynomial.toNat = 0xEDB88320 from rfl] at hval
    omega
  | false =>
    rw [hlow, if_neg (by simp), show (0 : UInt32).toNat = 0 from rfl] at hval
    have heven : r.toNat % 2 ≠ 1 := by simpa [lowBit, Nat.testBit_zero] using hlow
    apply UInt32.toNat_inj.1
    show r.toNat = 0
    omega

/-! ### Many shifts -/

theorem shiftBits_xor (n : Nat) (r s : UInt32) : shiftBits n (r ^^^ s) = shiftBits n r ^^^ shiftBits n s := by
  induction n generalizing r s with
  | zero => rfl
  | succ n ih => rw [shiftBits, shiftBits, shiftBits, shiftBit_xor, ih]

private theorem shiftBits_eq_zero {n : Nat} (h : shiftBits n r = 0) : r = 0 := by
  induction n generalizing r with
  | zero => exact h
  | succ n ih => exact shiftBit_eq_zero (ih h)

theorem shiftBits_inj {n : Nat} : shiftBits n r = shiftBits n s ↔ r = s := by
  refine ⟨fun h => ?_, fun h => h ▸ rfl⟩
  rw [← UInt32.xor_eq_zero_iff, ← shiftBits_xor] at h
  exact UInt32.xor_eq_zero_iff.1 (shiftBits_eq_zero h)

/-- A register whose lowest bits are clear only moves down. -/
private theorem toNat_shiftBits_of_dvd {n : Nat} (h : 2 ^ n ∣ r.toNat) :
    (shiftBits n r).toNat = r.toNat / 2 ^ n := by
  induction n generalizing r with
  | zero => rw [Nat.pow_zero, Nat.div_one]; rfl
  | succ n ih =>
    obtain ⟨k, hk⟩ := h
    have hhalf : r.toNat = 2 * (2 ^ n * k) := by rw [hk, Nat.pow_succ']; ac_rfl
    have hnext : (shiftBit r).toNat = 2 ^ n * k := by rw [toNat_shiftBit_of_even (by omega)]; omega
    rw [shiftBits, ih ⟨k, hnext⟩, hnext, hk, Nat.mul_div_cancel_left _ (Nat.two_pow_pos _),
      Nat.mul_div_cancel_left _ (Nat.two_pow_pos _)]

/-- Eight shifts: those of the lowest byte, and the rest eight places down. -/
theorem shiftBits_eight (r : UInt32) : shiftBits 8 r = shiftBits 8 r.toUInt8.toUInt32 ^^^ (r >>> 8) := by
  have hlow : r.toUInt8.toUInt32.toNat = r.toNat % 2 ^ 8 := by simp
  have hhigh : shiftBits 8 (r ^^^ r.toUInt8.toUInt32) = r >>> 8 := by
    apply UInt32.toNat_inj.1
    rw [toNat_shiftBits_of_dvd]
    · rw [UInt32.toNat_xor, hlow, Nat.xor_div_two_pow, Nat.mod_div_self, Nat.xor_zero, UInt32.toNat_shiftRight,
        Nat.shiftRight_eq_div_pow]
      rfl
    · apply Nat.dvd_of_mod_eq_zero
      rw [UInt32.toNat_xor, hlow, Nat.xor_mod_two_pow, Nat.mod_mod, Nat.xor_self]
  calc shiftBits 8 r
      = shiftBits 8 (r.toUInt8.toUInt32 ^^^ (r ^^^ r.toUInt8.toUInt32)) := by
        rw [UInt32.xor_comm r, ← UInt32.xor_assoc, UInt32.xor_self, UInt32.zero_xor]
    _ = shiftBits 8 r.toUInt8.toUInt32 ^^^ (r >>> 8) := by rw [shiftBits_xor, hhigh]

/-! ### The bits of a message -/

/-- The word that bits make up, the lowest one first. -/
def wordOfBits : List Bool → UInt32
  | [] => 0
  | bit :: bits => bit.toUInt32 ^^^ (wordOfBits bits <<< 1)

private theorem toNat_wordOfBits_lt {bits : List Bool} (h : bits.length ≤ 32) :
    (wordOfBits bits).toNat < 2 ^ bits.length := by
  induction bits with
  | nil => decide
  | cons bit bits ih =>
    rw [List.length_cons] at h ⊢
    have hbits := ih (by omega)
    rw [wordOfBits, UInt32.toNat_xor, toNat_shiftLeft_one]
    apply Nat.xor_lt_two_pow
    · have hbit : bit.toUInt32.toNat < 2 := by cases bit <;> decide
      exact Nat.lt_of_lt_of_le hbit (Nat.le_self_pow (Nat.succ_ne_zero _) 2)
    · apply Nat.lt_of_le_of_lt (Nat.mod_le _ _)
      rw [Nat.pow_succ]
      omega

private theorem shiftBit_wordOfBits {bits : List Bool} (h : bits.length < 32) :
    shiftBit (wordOfBits bits <<< 1) = wordOfBits bits := by
  apply shiftBit_shiftLeft
  exact Nat.lt_of_lt_of_le (toNat_wordOfBits_lt (by omega)) (Nat.pow_le_pow_right (by decide) (by omega))

theorem wordOfBits_inj {bits bits' : List Bool} (hlen : bits.length = bits'.length) (h : bits.length ≤ 32)
    (hw : wordOfBits bits = wordOfBits bits') : bits = bits' := by
  induction bits generalizing bits' with
  | nil => exact (List.length_eq_zero_iff.1 hlen.symm).symm
  | cons bit bits ih =>
    cases bits' with
    | nil => cases hlen
    | cons bit' bits' =>
      simp only [List.length_cons, Nat.add_right_cancel_iff] at hlen h
      rw [wordOfBits, wordOfBits] at hw
      have hbit : bit = bit' := by
        have hlow := congrArg lowBit hw
        rwa [lowBit_xor, lowBit_xor, lowBit_shiftLeft, lowBit_shiftLeft, Bool.xor_false, Bool.xor_false,
          lowBit_toUInt32, lowBit_toUInt32] at hlow
      rw [hbit, UInt32.xor_right_inj] at hw
      have hrest := congrArg shiftBit hw
      rw [shiftBit_wordOfBits h, shiftBit_wordOfBits (hlen ▸ h)] at hrest
      rw [hbit, ih hlen (by omega) hrest]

theorem stepBit_eq (r : UInt32) (bit : Bool) : stepBit r bit = shiftBit (r ^^^ bit.toUInt32) := by
  have hhalf : bit.toUInt32 >>> 1 = 0 := by cases bit <;> rfl
  rw [shiftBit_eq, UInt32.shiftRight_xor, hhalf, UInt32.xor_zero, lowBit_xor, lowBit_toUInt32]
  unfold stepBit
  simp only [and_one_eq_one]
  cases lowBit r <;> cases bit <;> simp

/-- Few enough bits reach the register as one word, and leave it one by one. -/
theorem foldl_stepBit {bits : List Bool} (h : bits.length ≤ 32) (r : UInt32) :
    bits.foldl stepBit r = shiftBits bits.length (r ^^^ wordOfBits bits) := by
  induction bits generalizing r with
  | nil => rw [wordOfBits, UInt32.xor_zero]; rfl
  | cons bit bits ih =>
    rw [List.length_cons] at h
    calc (bit :: bits).foldl stepBit r
        = shiftBits bits.length (stepBit r bit ^^^ wordOfBits bits) := ih (by omega) _
      _ = shiftBits bits.length (shiftBit (r ^^^ bit.toUInt32) ^^^ shiftBit (wordOfBits bits <<< 1)) := by
          rw [stepBit_eq, shiftBit_wordOfBits h]
      _ = shiftBits (bits.length + 1) (r ^^^ wordOfBits (bit :: bits)) := by
          rw [← shiftBit_xor, UInt32.xor_assoc]
          rfl

end Bindery.Checksum
