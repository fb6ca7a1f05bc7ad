import Bindery.FileSystem.ByteTree

/-!
# Contents of files

A file is so many bytes; past its end every position reads as zero, so making it longer shows
zeros there and nothing of what it held before it was made shorter.
-/

namespace Bindery.FileSystem

structure Content where
  size : Nat
  tree : ByteTree
  zero_beyond : ∀ i, size ≤ i → tree.get i = 0

namespace Content

def empty : Content := ⟨0, .zeros, fun _ _ => rfl⟩

instance : Inhabited Content := ⟨empty⟩

/-- The byte at a position, zero past the end. -/
def byteAt (c : Content) (i : Nat) : UInt8 := c.tree.get i

/-- The `n` bytes from a position on. -/
def slice (c : Content) (pos n : Nat) : List UInt8 := (List.range n).map fun i => c.byteAt (pos + i)

def toList (c : Content) : List UInt8 := c.slice 0 c.size

/-- Cuts off the end or adds zeros there. -/
def resize (c : Content) (n : Nat) : Content where
  size := n
  tree := c.tree.clear n c.size
  zero_beyond i h := by
    rw [ByteTree.get_clear]
    split
    · rfl
    · exact c.zero_beyond i (by omega)

/-- Puts bytes over what is at a position, longer than before if they reach past the end. -/
def overwrite (c : Content) (pos : Nat) (bytes : List UInt8) : Content where
  size := if bytes = [] then c.size else max c.size (pos + bytes.length)
  tree := c.tree.write pos bytes
  zero_beyond i h := by
    rw [ByteTree.get_write]
    by_cases hb : bytes = []
    · simp only [hb, if_true] at h
      simp [hb, c.zero_beyond i h]
    · simp only [hb, if_false] at h
      have : bytes.length ≤ i - pos := by omega
      simp [this, c.zero_beyond i (by omega)]

/-- Puts zeros at all positions from `lo` on and below `hi`. -/
def zeroFill (c : Content) (lo hi : Nat) : Content where
  size := c.size
  tree := c.tree.clear lo hi
  zero_beyond i h := by
    rw [ByteTree.get_clear]
    split
    · rfl
    · exact c.zero_beyond i h

def ofList (bytes : List UInt8) : Content := empty.overwrite 0 bytes

/-! ### Bytes after a change -/

@[simp] theorem length_slice (c : Content) (pos n : Nat) : (c.slice pos n).length = n := by
  simp [slice]

@[simp] theorem byteAt_empty (i : Nat) : empty.byteAt i = 0 := rfl

theorem byteAt_resize (c : Content) (n i : Nat) :
    (c.resize n).byteAt i = if i < n then c.byteAt i else 0 := by
  simp only [byteAt, resize, ByteTree.get_clear]
  by_cases h : i < n
  · have : ¬ (n ≤ i ∧ i < c.size) := by omega
    simp [h, this]
  · by_cases h' : i < c.size
    · have : n ≤ i ∧ i < c.size := by omega
      simp [h, this]
    · have h1 : ¬ (n ≤ i ∧ i < c.size) := by omega
      simp [h, h1, c.zero_beyond i (by omega)]

theorem byteAt_overwrite (c : Content) (pos i : Nat) (bytes : List UInt8) :
    (c.overwrite pos bytes).byteAt i =
      if pos ≤ i then (bytes[i - pos]?).getD (c.byteAt i) else c.byteAt i :=
  ByteTree.get_write c.tree pos i bytes

theorem byteAt_zeroFill (c : Content) (lo hi i : Nat) :
    (c.zeroFill lo hi).byteAt i = if lo ≤ i ∧ i < hi then 0 else c.byteAt i :=
  ByteTree.get_clear c.tree lo hi i

/-- What was written is read back. -/
theorem slice_overwrite_self (c : Content) (pos : Nat) (bytes : List UInt8) :
    (c.overwrite pos bytes).slice pos bytes.length = bytes := by
  refine List.ext_getElem (by simp) fun i h₁ h₂ => ?_
  simp [slice, byteAt_overwrite, h₂]

/-- What lies beside a written range stays as it was. -/
theorem slice_overwrite_of_disjoint (c : Content) (pos : Nat) (bytes : List UInt8) (off n : Nat)
    (h : off + n ≤ pos ∨ pos + bytes.length ≤ off) :
    (c.overwrite pos bytes).slice off n = c.slice off n := by
  refine List.ext_getElem (by simp) fun i h₁ h₂ => ?_
  simp only [length_slice] at h₁
  simp only [slice, List.getElem_map, List.getElem_range, byteAt_overwrite]
  split
  · have : bytes.length ≤ off + i - pos := by omega
    simp [this]
  · rfl

end Content

end Bindery.FileSystem
