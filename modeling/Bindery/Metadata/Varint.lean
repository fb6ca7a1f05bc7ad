import Bindery.LittleEndian

/-!
# Numbers of varying length

A number below 251 is one byte. A larger one follows a byte that tells how many bytes it takes:
251 for two, 252 for four, 253 for eight. A reader of numbers of a given width refuses longer
forms, but not a form that is longer than it need be. Signed numbers are folded into unsigned
ones, those below zero on the odd places.

Readers hand back the bytes behind what they read.
-/

namespace Bindery.Varint

/-- The shortest form of a number of at most eight bytes. -/
def encode (n : Nat) : List UInt8 :=
  if n < 251 then [UInt8.ofNat n]
  else if n < 0x10000 then 251 :: LittleEndian.ofNat 2 n
  else if n < 0x100000000 then 252 :: LittleEndian.ofNat 4 n
  else 253 :: LittleEndian.ofNat 8 n

/-- The first bytes and the rest, if there are so many. -/
def takeBytes? (n : Nat) (bytes : List UInt8) : Option (List UInt8 × List UInt8) :=
  if (bytes.take n).length = n then some (bytes.take n, bytes.drop n) else none

/-- How many bytes follow a leading byte from 251 on. -/
def widthOf? (lead : UInt8) : Option Nat :=
  if lead = 251 then some 2 else if lead = 252 then some 4 else if lead = 253 then some 8 else none

/-- Reads a number of at most `width` bytes. -/
def decode? (width : Nat) : List UInt8 → Option (Nat × List UInt8)
  | [] => none
  | lead :: bytes =>
    if lead < 251 then some (lead.toNat, bytes)
    else
      match widthOf? lead with
      | none => none
      | some n =>
        if width < n then none
        else (takeBytes? n bytes).map fun (number, rest) => (LittleEndian.toNat number, rest)

/-- Folds a signed number into an unsigned one. -/
def fold (i : Int) : Nat := if i < 0 then 2 * i.natAbs - 1 else 2 * i.natAbs

def unfold (n : Nat) : Int := if n % 2 = 0 then (n / 2 : Nat) else -((n / 2 : Nat) + 1 : Int)

theorem unfold_fold (i : Int) : unfold (fold i) = i := by
  unfold fold Varint.unfold
  split <;> split <;> omega

theorem takeBytes?_append (bytes rest : List UInt8) :
    takeBytes? bytes.length (bytes ++ rest) = some (bytes, rest) := by
  simp [takeBytes?]

theorem decode?_encode {width n : Nat} (hw : width = 4 ∨ width = 8)
    (h : n < LittleEndian.limit width) (rest : List UInt8) :
    decode? width (encode n ++ rest) = some (n, rest) := by
  have take (w : Nat) (hn : n < LittleEndian.limit w) :
      (takeBytes? w (LittleEndian.ofNat w n ++ rest)).map
        (fun (number, rest) => (LittleEndian.toNat number, rest)) = some (n, rest) := by
    have := takeBytes?_append (LittleEndian.ofNat w n) rest
    rw [LittleEndian.length_ofNat] at this
    simp [this, LittleEndian.toNat_ofNat w n hn]
  unfold encode
  split
  · next hn =>
    have h1 : UInt8.ofNat n < 251 := by
      rw [UInt8.lt_iff_toNat_lt, UInt8.toNat_ofNat']
      exact Nat.lt_of_le_of_lt (Nat.mod_le _ _) hn
    have h2 : n % 256 = n := Nat.mod_eq_of_lt (by omega)
    simp [decode?, h1, h2]
  · split
    · next hn =>
      have h1 : ¬ width < 2 := by omega
      simpa [decode?, widthOf?, h1] using take 2 (by simpa [LittleEndian.limit] using hn)
    · split
      · next hn =>
        have h1 : ¬ width < 4 := by omega
        simpa [decode?, widthOf?, h1] using take 4 (by simpa [LittleEndian.limit] using hn)
      · next hn =>
        rcases hw with rfl | rfl
        · simp [LittleEndian.limit] at h; omega
        · simpa [decode?, widthOf?] using take 8 h

end Bindery.Varint
