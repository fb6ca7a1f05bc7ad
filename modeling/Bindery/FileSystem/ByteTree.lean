/-!
# Sparse bytes

Bytes at the positions 0, 1, 2, …, nearly all of them zero: a binary tree with position 0 at its
top, the odd positions on one side and the even ones on the other. Only what was written takes
room, however far out it lies. `get_set` and `get_clear` say what the two changes do.
-/

namespace Bindery.FileSystem

/-- Bytes by position; where the tree ends, all further positions hold zero. -/
inductive ByteTree where
  | zeros
  | node (first : UInt8) (odd even : ByteTree)
  deriving DecidableEq, Inhabited

namespace ByteTree

def get : ByteTree → Nat → UInt8
  | zeros, _ => 0
  | node b odd even, i =>
    if i = 0 then b else if i % 2 = 1 then odd.get (i / 2) else even.get (i / 2 - 1)

def set : ByteTree → Nat → UInt8 → ByteTree
  | zeros, i, v =>
    if i = 0 then node v zeros zeros
    else if i % 2 = 1 then node 0 (zeros.set (i / 2) v) zeros
    else node 0 zeros (zeros.set (i / 2 - 1) v)
  | node b odd even, i, v =>
    if i = 0 then node v odd even
    else if i % 2 = 1 then node b (odd.set (i / 2) v) even
    else node b odd (even.set (i / 2 - 1) v)
termination_by _ i => i

/-- Puts zero at all positions from `lo` on and below `hi`. -/
def clear : ByteTree → Nat → Nat → ByteTree
  | zeros, _, _ => zeros
  | node b odd even, lo, hi =>
    if hi ≤ lo then node b odd even
    else node (if lo = 0 then 0 else b) (odd.clear (lo / 2) (hi / 2))
      (even.clear ((lo - 1) / 2) ((hi - 1) / 2))

/-- Puts bytes one after the other from a position on. -/
def write (t : ByteTree) (i : Nat) : List UInt8 → ByteTree
  | [] => t
  | b :: bytes => (t.set i b).write (i + 1) bytes

@[simp] theorem get_zeros (i : Nat) : zeros.get i = 0 := rfl

theorem get_set (t : ByteTree) (i j : Nat) (v : UInt8) :
    (t.set i v).get j = if j = i then v else t.get j := by
  fun_induction set t i v generalizing j with
  | case1 v | case4 b odd even v => by_cases hj : j = 0 <;> simp [get, hj]
  | case2 i v hi hodd ih | case5 b odd even i v hi hodd ih =>
    by_cases hj : j = 0
    · simp [get, hj, Ne.symm hi]
    · by_cases hj' : j % 2 = 1
      · have : (j / 2 = i / 2) ↔ j = i := by omega
        simp [get, hj, hj', ih, this]
      · have : j ≠ i := by omega
        simp [get, hj, hj', this]
  | case3 i v hi heven ih | case6 b odd even i v hi heven ih =>
    by_cases hj : j = 0
    · simp [get, hj, Ne.symm hi]
    · by_cases hj' : j % 2 = 1
      · have : j ≠ i := by omega
        simp [get, hj, hj', this]
      · have : (j / 2 - 1 = i / 2 - 1) ↔ j = i := by omega
        simp [get, hj, hj', ih, this]

theorem get_clear (t : ByteTree) (lo hi i : Nat) :
    (t.clear lo hi).get i = if lo ≤ i ∧ i < hi then 0 else t.get i := by
  fun_induction clear t lo hi generalizing i with
  | case1 => simp
  | case2 b odd even lo hi h =>
    have : ¬ (lo ≤ i ∧ i < hi) := by omega
    simp [this]
  | case3 b odd even lo hi h iho ihe =>
    rw [get, get]
    by_cases h0 : i = 0
    · subst h0
      by_cases hlo : lo = 0
      · have : 0 < hi := by omega
        simp [hlo, this]
      · simp [hlo]
    · by_cases h1 : i % 2 = 1
      · have : (lo / 2 ≤ i / 2 ∧ i / 2 < hi / 2) ↔ (lo ≤ i ∧ i < hi) := by omega
        simp [h0, h1, iho, this]
      · have : ((lo - 1) / 2 ≤ i / 2 - 1 ∧ i / 2 - 1 < (hi - 1) / 2) ↔ (lo ≤ i ∧ i < hi) := by omega
        simp [h0, h1, ihe, this]

theorem get_write (t : ByteTree) (i j : Nat) (bytes : List UInt8) :
    (t.write i bytes).get j = if i ≤ j then (bytes[j - i]?).getD (t.get j) else t.get j := by
  induction bytes generalizing t i with
  | nil => simp [write]
  | cons b bytes ih =>
    rw [write, ih, get_set]
    by_cases h : j = i
    · subst h
      have : ¬ (j + 1 ≤ j) := by omega
      simp [this]
    · by_cases h' : i + 1 ≤ j
      · have h1 : i ≤ j := by omega
        have h2 : j - i = j - (i + 1) + 1 := by omega
        simp [h, h', h1, h2]
      · have h1 : ¬ i ≤ j := by omega
        simp [h, h', h1]

end ByteTree

end Bindery.FileSystem
