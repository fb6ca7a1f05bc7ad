import Bindery.Proofs.Checksum.BitSerial

/-!
# Edits that a checksum shows

Four bytes in a row reach the register as one word (`foldl_stepByte_inj_of_length`), and bytes that follow take
different registers to different ones (`foldl_stepByte_inj`).  So two byte strings of one length that differ within
four bytes in a row have different checksums, and so has a file one byte of which is replaced
(`local_edits_change_checksum`).
-/

namespace Bindery.Checksum

variable {xs ys : List UInt8} {r s : UInt32}

/-- Two byte strings have one length, and are the same but for `n` bytes in a row from position `k` on. -/
structure DifferWithin (k n : Nat) (xs ys : List UInt8) : Prop where
  length_eq : xs.length = ys.length
  outside : ∀ i, i < k ∨ k + n ≤ i → xs[i]? = ys[i]?

/-! ### The register after some bytes -/

/-- Bytes that follow tell registers apart. -/
theorem foldl_stepByte_inj (bytes : List UInt8) : bytes.foldl stepByte r = bytes.foldl stepByte s ↔ r = s := by
  induction bytes generalizing r s with
  | nil => exact Iff.rfl
  | cons b bytes ih =>
    rw [List.foldl_cons, List.foldl_cons, ih, stepByte_eq, stepByte_eq, shiftBits_inj, UInt32.xor_left_inj]

private theorem bitsOfByte_inj {b b' : UInt8} (h : bitsOfByte b = bitsOfByte b') : b = b' := by
  have hword := congrArg wordOfBits h
  rw [wordOfBits_bitsOfByte, wordOfBits_bitsOfByte] at hword
  exact UInt8.toUInt32_inj.1 hword

private theorem length_bits (bytes : List UInt8) : (bytes.flatMap bitsOfByte).length = 8 * bytes.length := by
  induction bytes with
  | nil => rfl
  | cons b bytes ih =>
    rw [List.flatMap_cons, List.length_append, length_bitsOfByte, ih, List.length_cons]
    omega

private theorem bits_inj (hlen : xs.length = ys.length) (h : xs.flatMap bitsOfByte = ys.flatMap bitsOfByte) :
    xs = ys := by
  induction xs generalizing ys with
  | nil => exact (List.length_eq_zero_iff.1 hlen.symm).symm
  | cons x xs ih =>
    cases ys with
    | nil => cases hlen
    | cons y ys =>
      rw [List.flatMap_cons, List.flatMap_cons] at h
      obtain ⟨hfirst, hrest⟩ := List.append_inj h (by rw [length_bitsOfByte, length_bitsOfByte])
      rw [bitsOfByte_inj hfirst, ih (Nat.succ.inj hlen) hrest]

/-- A register shows which of all byte strings of one length, up to four, has reached it. -/
theorem foldl_stepByte_inj_of_length (hlen : xs.length = ys.length) (h : xs.length ≤ 4) :
    xs.foldl stepByte r = ys.foldl stepByte r ↔ xs = ys := by
  refine ⟨fun heq => ?_, fun heq => heq ▸ rfl⟩
  have hbits := length_bits xs
  have hbits' := length_bits ys
  rw [foldl_stepByte, foldl_stepByte, foldl_stepBit (by omega), foldl_stepBit (by omega), hbits, hbits', ← hlen,
    shiftBits_inj, UInt32.xor_right_inj] at heq
  exact bits_inj hlen (wordOfBits_inj (by omega) (by omega) heq)

/-! ### Local edits -/

namespace DifferWithin

/-- What stands before and behind the bytes that may differ is shared. -/
theorem split {k n : Nat} (h : DifferWithin k n xs ys) :
    ∃ before window window' after, xs = before ++ window ++ after ∧ ys = before ++ window' ++ after ∧
      window.length = window'.length ∧ window.length ≤ n := by
  have hparts (zs : List UInt8) : zs = zs.take k ++ (zs.drop k).take n ++ zs.drop (k + n) := by
    rw [List.append_assoc, ← List.drop_drop, List.take_append_drop, List.take_append_drop]
  have hbefore : ys.take k = xs.take k := by
    apply List.ext_getElem?
    intro i
    rw [List.getElem?_take, List.getElem?_take]
    split
    · next hi => exact (h.outside i (.inl hi)).symm
    · rfl
  have hafter : ys.drop (k + n) = xs.drop (k + n) := by
    apply List.ext_getElem?
    intro i
    rw [List.getElem?_drop, List.getElem?_drop]
    exact (h.outside _ (.inr (Nat.le_add_right _ _))).symm
  refine ⟨xs.take k, (xs.drop k).take n, (ys.drop k).take n, xs.drop (k + n), hparts xs, ?_, ?_, ?_⟩
  · rw [← hbefore, ← hafter]
    exact hparts ys
  · rw [List.length_take, List.length_take, List.length_drop, List.length_drop, h.length_eq]
  · exact List.length_take_le ..

theorem crc32_inj {k : Nat} (h : DifferWithin k 4 xs ys) : crc32 xs = crc32 ys ↔ xs = ys := by
  refine ⟨fun heq => ?_, fun heq => heq ▸ rfl⟩
  obtain ⟨before, window, window', after, rfl, rfl, hlen, hle⟩ := h.split
  have hregister := (UInt32.xor_left_inj _).1 heq
  simp only [Crc32.feed, List.foldl_append] at hregister
  rw [foldl_stepByte_inj, foldl_stepByte_inj_of_length hlen hle] at hregister
  rw [hregister]

theorem of_set (bytes : List UInt8) (i : Nat) (b : UInt8) : DifferWithin i 1 bytes (bytes.set i b) where
  length_eq := List.length_set.symm
  outside j hj := (List.getElem?_set_ne (by omega)).symm

theorem mono {k m n : Nat} (h : DifferWithin k m xs ys) (hle : m ≤ n) : DifferWithin k n xs ys where
  length_eq := h.length_eq
  outside i hi := h.outside i (by omega)

end DifferWithin

/-- Byte strings of one length that differ, and only within four bytes in a row, have different checksums.  A file has
another checksum as soon as one of its bytes is another one. -/
theorem local_edits_change_checksum :
    (∀ k xs ys, DifferWithin k 4 xs ys → xs ≠ ys → crc32 xs ≠ crc32 ys) ∧
      ∀ (fs₁ fs₂ : FileSystem) (p : Path) (bytes : List UInt8) (i : Nat) (b : UInt8) (hi : i < bytes.length),
        fs₁.read p = .ok bytes → fs₂.read p = .ok (bytes.set i b) → b ≠ bytes[i] →
          ∃ c₁ c₂, ofFile fs₁ p = .ok c₁ ∧ ofFile fs₂ p = .ok c₂ ∧ c₁ ≠ c₂ := by
  have hcrc (k : Nat) (xs ys : List UInt8) (h : DifferWithin k 4 xs ys) (hne : xs ≠ ys) : crc32 xs ≠ crc32 ys :=
    fun heq => hne (h.crc32_inj.1 heq)
  refine ⟨hcrc, fun fs₁ fs₂ p bytes i b hi h₁ h₂ hb => ⟨crc32 bytes, crc32 (bytes.set i b), ?_, ?_, ?_⟩⟩
  · rw [ofFile_eq, h₁]
  · rw [ofFile_eq, h₂]
  · apply hcrc i _ _ ((DifferWithin.of_set bytes i b).mono (by decide))
    intro heq
    have hget := congrArg (·[i]?) heq
    simp only [List.getElem?_eq_getElem hi, List.getElem?_set_self hi, Option.some.injEq] at hget
    exact hb hget.symm

/-- Four neighbouring bytes of six change, and one byte of a file. -/
theorem checksum_of_edited_file :
    crc32 [9, 1, 2, 3, 4, 9] ≠ crc32 [9, 4, 3, 2, 1, 9] ∧
      ∃ fs₁ fs₂ : FileSystem, fs₁.read (.ofString "a") = .ok [1, 2, 3] ∧ fs₂.read (.ofString "a") = .ok [1, 2, 4] ∧
        ∃ c₁ c₂, ofFile fs₁ (.ofString "a") = .ok c₁ ∧ ofFile fs₂ (.ofString "a") = .ok c₂ ∧ c₁ ≠ c₂ := by
  have hwithin : DifferWithin 1 4 [9, 1, 2, 3, 4, 9] [9, 4, 3, 2, 1, 9] := by
    refine ⟨rfl, fun i hi => ?_⟩
    match i with
    | 0 | 5 => rfl
    | 1 | 2 | 3 | 4 => omega
    | n + 6 => rfl
  constructor
  · exact local_edits_change_checksum.1 1 _ _ hwithin (by decide)
  · let fs₁ := (FileSystem.bare ⟨0⟩).addFile [Text.encode "a"] ⟨.ofList [1, 2, 3], ⟨0⟩⟩
    let fs₂ := (FileSystem.bare ⟨0⟩).addFile [Text.encode "a"] ⟨.ofList [1, 2, 4], ⟨0⟩⟩
    have h₁ : fs₁.read (.ofString "a") = .ok [1, 2, 3] := by decide +kernel
    have h₂ : fs₂.read (.ofString "a") = .ok [1, 2, 4] := by decide +kernel
    exact ⟨fs₁, fs₂, h₁, h₂, local_edits_change_checksum.2 fs₁ fs₂ _ [1, 2, 3] 2 4 (by decide) h₁ h₂ (by decide)⟩

end Bindery.Checksum
