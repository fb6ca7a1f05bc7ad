import Bindery.FileSystem.Content

/-!
# Slices of contents

What the changes to a content do to a slice of it: a slice beside the changed bytes stays, and a slice around
overwritten bytes has them in their place (`slice_overwrite_inside`).
-/

namespace Bindery.FileSystem.Content

variable (c : Content) {pos lo hi n : Nat}

theorem slice_add (pos m n : Nat) : c.slice pos (m + n) = c.slice pos m ++ c.slice (pos + m) n := by
  unfold slice
  rw [List.range_add, List.map_append, List.map_map]
  congr 1
  apply List.map_congr_left
  intro i _
  show c.byteAt (pos + (m + i)) = c.byteAt (pos + m + i)
  rw [Nat.add_assoc]

theorem slice_succ (pos n : Nat) : c.slice pos (n + 1) = c.byteAt pos :: c.slice (pos + 1) n := by
  rw [Nat.add_comm n 1, slice_add]
  rfl

theorem slice_eq_slice {d : Content} :
    c.slice pos n = d.slice pos n ↔ ∀ i < n, c.byteAt (pos + i) = d.byteAt (pos + i) := by
  unfold slice
  rw [List.map_inj_left]
  simp only [List.mem_range]

theorem take_drop_slice {i m : Nat} (h : i + m ≤ n) : ((c.slice pos n).drop i).take m = c.slice (pos + i) m := by
  obtain ⟨k, rfl⟩ := Nat.exists_eq_add_of_le h
  rw [slice_add, slice_add, List.append_assoc, List.drop_left' (length_slice c pos i),
    List.take_left' (length_slice c (pos + i) m)]

/-- A slice of a content is one of every content that begins with all of its bytes. -/
theorem slice_of_isPrefix {d : Content} (h : c.toList <+: d.toList) (hn : pos + n ≤ c.size) :
    d.slice pos n = c.slice pos n := by
  have hsize : c.size ≤ d.size := by simpa [toList] using h.length_le
  obtain ⟨k, hk⟩ := Nat.exists_eq_add_of_le hsize
  have hfront : d.slice 0 c.size = c.slice 0 c.size := by
    obtain ⟨rest, hrest⟩ := h
    rw [toList, toList, hk, slice_add] at hrest
    exact (List.append_inj hrest (by simp)).1.symm
  rw [← Nat.zero_add pos, ← take_drop_slice d hn, ← take_drop_slice c hn, hfront]

theorem slice_zeroFill_of_le (h : pos + n ≤ lo) : (c.zeroFill lo hi).slice pos n = c.slice pos n := by
  unfold slice
  apply List.map_congr_left
  intro i hi
  have := List.mem_range.1 hi
  rw [byteAt_zeroFill, if_neg (by omega)]

theorem slice_zeroFill_self (h : lo ≤ pos) (h' : pos + n ≤ hi) :
    (c.zeroFill lo hi).slice pos n = List.replicate n 0 := by
  refine List.ext_getElem (by simp) fun i hi _ => ?_
  rw [length_slice] at hi
  simp only [slice, List.getElem_map, List.getElem_range, List.getElem_replicate]
  rw [byteAt_zeroFill, if_pos (by omega)]

theorem slice_resize_of_le {size : Nat} (h : pos + n ≤ size) : (c.resize size).slice pos n = c.slice pos n := by
  unfold slice
  apply List.map_congr_left
  intro i hi
  have := List.mem_range.1 hi
  rw [byteAt_resize, if_pos (by omega)]

/-- Bytes that are written into a slice stand in their place in it. -/
theorem slice_overwrite_inside {i : Nat} {bytes : List UInt8} (h : i + bytes.length ≤ n) :
    (c.overwrite (pos + i) bytes).slice pos n =
      (c.slice pos n).take i ++ bytes ++ (c.slice pos n).drop (i + bytes.length) := by
  obtain ⟨k, rfl⟩ := Nat.exists_eq_add_of_le h
  have hparts (c : Content) : c.slice pos (i + bytes.length + k) =
      c.slice pos i ++ (c.slice (pos + i) bytes.length ++ c.slice (pos + (i + bytes.length)) k) := by
    rw [slice_add, slice_add, List.append_assoc]
  have hbefore : (c.overwrite (pos + i) bytes).slice pos i = c.slice pos i :=
    slice_overwrite_of_disjoint c _ _ _ _ (.inl (Nat.le_refl _))
  have hbehind : (c.overwrite (pos + i) bytes).slice (pos + (i + bytes.length)) k =
      c.slice (pos + (i + bytes.length)) k := by
    apply slice_overwrite_of_disjoint
    omega
  rw [hparts, hparts, hbefore, hbehind, slice_overwrite_self, List.take_left' (length_slice c pos i),
    ← List.drop_drop, List.drop_left' (length_slice c pos i), List.drop_left' (length_slice c _ _),
    List.append_assoc]

end Bindery.FileSystem.Content
