import Bindery.Proofs.Arena.Bounds
import Bindery.Proofs.Arena.Positions

/-!
# Elements of arrays

The offset of an element names the position as many sizes behind the start of the array, if 32 bits can name it
(`Offset.element?_eq_some`), so an element of the array that starts at an element is one of the whole array
(`Offset.element?_element?`).  Where no more is allocated than offsets reach, values that stand one behind the other
can be accessed as a whole exactly if each of them can (`accessible_iff_forall_element`), and what is read as a whole
is what is read element by element (`slices_agree_with_elements`).
-/

namespace Bindery.Arena

open FileSystem

/-! ### Offsets of elements -/

namespace Offset

variable {o e : Offset} {layout : Layout} {i j n : Nat}

theorem position_lt (h : o ≠ .null) : o.position < maxCapacity := by
  refine Nat.lt_of_le_of_ne o.position_le fun hposition => h ?_
  exact congrArg Offset.mk (UInt32.toNat_inj.1 hposition)

theorem ofPosition_position (o : Offset) : ofPosition o.position = o :=
  congrArg Offset.mk UInt32.ofNat_toNat

/-- An offset names a position if it is not null, and then it is the offset of that position. -/
theorem ofPosition_eq_iff (h : n < maxCapacity) : ofPosition n = e ↔ e.position = n := by
  constructor
  · rintro rfl
    exact position_ofPosition (Nat.le_of_lt h)
  · rintro rfl
    exact ofPosition_position e

theorem element?_eq_some :
    o.element? layout i = some e ↔ o ≠ .null ∧ e ≠ .null ∧ e.position = o.position + i * layout.size := by
  have hnull : null.position = maxCapacity := rfl
  unfold element? isNull
  rw [hnull]
  by_cases ho : o = .null
  · simp [ho]
  by_cases hn : o.position + i * layout.size < maxCapacity
  · simp only [ho, hn, decide_false, Bool.false_eq_true, if_false, if_true, Option.some.injEq, ofPosition_eq_iff hn]
    refine ⟨fun he => ⟨ho, ne_null (by omega), he⟩, fun he => he.2.2⟩
  · simp only [ho, hn, decide_false, Bool.false_eq_true, if_false, reduceCtorEq, false_iff]
    rintro ⟨-, he, hposition⟩
    have := position_lt he
    omega

/-- The elements of the array that starts at an element are those of the whole array, counted from there. -/
theorem element?_element? (h : o.element? layout i = some e) (j : Nat) :
    e.element? layout j = o.element? layout (i + j) := by
  obtain ⟨ho, he, hposition⟩ := element?_eq_some.1 h
  have hsum : e.position + j * layout.size = o.position + (i + j) * layout.size := by
    rw [hposition, Nat.add_mul, Nat.add_assoc]
  ext e'
  rw [element?_eq_some, element?_eq_some, hsum]
  simp only [he, ho, ne_eq, not_false_eq_true, true_and]

end Offset

/-! ### Access to elements -/

variable {a : Arena} {s : State} {layout : Layout} {o e : Offset} {i n : Nat} {bytes : List UInt8}

theorem element_stop_le (layout : Layout) (h : i < n) : i * layout.size + layout.size ≤ layout.size * n := by
  rw [← Nat.succ_mul, Nat.mul_comm layout.size n]
  exact Nat.mul_le_mul_right _ h

/-- Each of several values that lie in the allocated region as a whole has an offset, and lies there. -/
theorem Accessible.element (hsize : a.size ≤ maxCapacity) (hvalue : 0 < layout.size)
    (h : Accessible a layout o (layout.size * n)) (hi : i < n) :
    ∃ e, o.element? layout i = some e ∧ Accessible a layout e layout.size := by
  have hstop := h.stop_le
  have hwithin := element_stop_le layout hi
  have hreached : o.position + i * layout.size < maxCapacity := by omega
  obtain ⟨hnull, hposition⟩ := (Offset.names_iff _).2 hreached
  refine ⟨_, Offset.element?_eq_some.2 ⟨h.ne_null, hnull, hposition⟩, h.isOpen, hnull, by omega, ?_⟩
  rw [hposition]
  -- a size is so many alignments
  have hmultiple : layout.align ∣ i * layout.size := Nat.dvd_mul_left_of_dvd layout.align_dvd_size i
  exact Nat.mod_eq_zero_of_dvd (Nat.dvd_add (Nat.dvd_of_mod_eq_zero h.aligned) hmultiple)

/-- Values that stand one behind the other lie in the allocated region, aligned, exactly if each of them does.  All of
them have offsets, then, since offsets reach behind the region's last byte. -/
theorem accessible_iff_forall_element (hsize : a.size ≤ maxCapacity) (hvalue : 0 < layout.size) (hn : 0 < n) :
    Accessible a layout o (layout.size * n) ↔
      ∀ i < n, ∃ e, o.element? layout i = some e ∧ Accessible a layout e layout.size := by
  refine ⟨fun h i hi => h.element hsize hvalue hi, fun h => ?_⟩
  -- the first value shows where they start, the last one where they end
  obtain ⟨first, hfirst, haccess⟩ := h 0 hn
  obtain ⟨hnull, -, hstart⟩ := Offset.element?_eq_some.1 hfirst
  obtain ⟨last, hlast, hend⟩ := h (n - 1) (Nat.sub_lt hn Nat.one_pos)
  obtain ⟨-, -, hposition⟩ := Offset.element?_eq_some.1 hlast
  have hstop := hend.stop_le
  have hlength : (n - 1) * layout.size + layout.size = layout.size * n := by
    rw [← Nat.succ_mul, Nat.succ_eq_add_one, Nat.sub_add_cancel hn, Nat.mul_comm]
  rw [Nat.zero_mul, Nat.add_zero] at hstart
  exact ⟨haccess.isOpen, hnull, by omega, hstart ▸ haccess.aligned⟩

/-! ### Reading elements -/

theorem State.get_eq_ok {value : List UInt8} :
    s.get layout o = .ok value ↔ Accessible s.arena layout o layout.size ∧ value = s.bytes o.position layout.size :=
  State.readRange_eq_ok_bytes

/-- The bytes of an element are a part of the bytes of the array. -/
theorem State.bytes_element (s : State) (pos : Nat) (h : i < n) :
    ((s.bytes pos (layout.size * n)).drop (i * layout.size)).take layout.size =
      s.bytes (pos + i * layout.size) layout.size := by
  cases hm : s.arena.mapping with
  | none => simp [State.bytes, hm]
  | some m => rw [State.bytes_eq hm, State.bytes_eq hm, Content.take_drop_slice _ (element_stop_le layout h)]

theorem State.get_element (hsize : s.arena.size ≤ maxCapacity) (hvalue : 0 < layout.size)
    (h : s.getAll layout o n = .ok bytes) (hi : i < n) (he : o.element? layout i = some e) :
    s.get layout e = .ok ((bytes.drop (i * layout.size)).take layout.size) := by
  obtain ⟨haccess, rfl⟩ := (State.getAll_eq_ok (Nat.lt_of_le_of_lt hsize (by decide))).1 h
  obtain ⟨e', he', haccess⟩ := haccess.element hsize hvalue hi
  cases he.symm.trans he'
  obtain ⟨-, -, hposition⟩ := Offset.element?_eq_some.1 he
  rw [State.get_eq_ok, State.bytes_element s _ hi, hposition]
  exact ⟨haccess, rfl⟩

/-- In every state that a handle can come to, if the mapping is no longer than offsets reach: values can be read as a
whole exactly if each of them has an offset at which it can be read, and then each of them is read as the part of the
whole that it is.  Elements of elements are elements. -/
theorem slices_agree_with_elements (h : Reachable s) (hcapacity : s.arena.capacity ≤ maxCapacity) (layout : Layout)
    (hvalue : 0 < layout.size) (o : Offset) (n : Nat) (hn : 0 < n) :
    ((∃ bytes, s.getAll layout o n = .ok bytes) ↔
      ∀ i < n, ∃ e, o.element? layout i = some e ∧ ∃ value, s.get layout e = .ok value) ∧
    (∀ bytes, s.getAll layout o n = .ok bytes → bytes.length = layout.size * n ∧
      ∀ i < n, ∀ e, o.element? layout i = some e →
        s.get layout e = .ok ((bytes.drop (i * layout.size)).take layout.size)) ∧
    ∀ (layout : Layout) (o e : Offset) (i j : Nat), o.element? layout i = some e →
      e.element? layout j = o.element? layout (i + j) := by
  have hsize : s.arena.size ≤ maxCapacity := Nat.le_trans h.balanced.size_le hcapacity
  have hall (bytes : List UInt8) : s.getAll layout o n = .ok bytes ↔
      Accessible s.arena layout o (layout.size * n) ∧ bytes = s.bytes o.position (layout.size * n) :=
    State.getAll_eq_ok (Nat.lt_of_le_of_lt hsize (by decide))
  refine ⟨?_, fun bytes hbytes => ⟨?_, fun i hi e he => State.get_element hsize hvalue hbytes hi he⟩,
    fun layout o e i j he => Offset.element?_element? he j⟩
  · simp only [hall, State.get_eq_ok, exists_and_left, exists_eq, and_true]
    exact accessible_iff_forall_element hsize hvalue hn
  · obtain ⟨haccess, rfl⟩ := (hall bytes).1 hbytes
    obtain ⟨m, hm⟩ := isOpen_eq_true.1 haccess.isOpen
    rw [State.bytes_eq hm, Content.length_slice]

/-- Three words in an arena of fourteen bytes, of which twelve are allocated: the third is read at its own offset, and a
fourth, of which no more than two bytes are there, cannot be read with the others. -/
theorem three_words_and_no_fourth :
    ∃ s, Reachable s ∧ s.arena.capacity = 14 ∧ s.arena.size = 12 ∧
      s.getAll .word32 ⟨0⟩ 3 = .ok [1, 0, 0, 0, 2, 0, 0, 0, 3, 0, 0, 0] ∧
      s.get .word32 ⟨8⟩ = .ok [3, 0, 0, 0] ∧ ¬ (∃ bytes, s.getAll .word32 ⟨0⟩ 4 = .ok bytes) ∧
      (⟨4⟩ : Offset).element? .word32 1 = (⟨0⟩ : Offset).element? .word32 2 := by
  let s := runAll [.create 14, .pushAll .word32 [[1, 0, 0, 0], [2, 0, 0, 0], [3, 0, 0, 0]]]
    ⟨bare ⟨0⟩, closed (.ofString "a")⟩
  have hs : Reachable s := (Reachable.new _ _).runAll _
  have hcapacity : s.arena.capacity ≤ maxCapacity := by decide +kernel
  have hthree : s.getAll .word32 ⟨0⟩ 3 = .ok [1, 0, 0, 0, 2, 0, 0, 0, 3, 0, 0, 0] := by decide +kernel
  obtain ⟨-, hvalues, helements⟩ := slices_agree_with_elements hs hcapacity .word32 (by decide) ⟨0⟩ 3 (by decide)
  obtain ⟨hfour, -⟩ := slices_agree_with_elements hs hcapacity .word32 (by decide) ⟨0⟩ 4 (by decide)
  refine ⟨s, hs, by decide +kernel, by decide +kernel, hthree, ?_, fun hread => ?_, helements _ _ _ 1 1 (by decide)⟩
  · exact (hvalues _ hthree).2 2 (by decide) ⟨8⟩ (by decide)
  · obtain ⟨e, he, value, hvalue⟩ := hfour.1 hread 3 (by decide)
    have hlast : (⟨0⟩ : Offset).element? .word32 3 = some ⟨12⟩ := by decide
    cases hlast.symm.trans he
    have hrefused : (s.get .word32 ⟨12⟩).toOption = none := by decide +kernel
    rw [hvalue] at hrefused
    cases hrefused

end Bindery.Arena
