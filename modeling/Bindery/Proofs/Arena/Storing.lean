import Bindery.Proofs.Arena.Ledger
import Mathlib.Data.List.Pairwise

/-!
# Storing in an arena

An arena that is mapped for writing and holds a ledger holds one after every allocation and every write within a
block, too: room that is handed out is a new block of zeros behind all others (`Ledger.Represents.allocate`), and a
write changes the block that it falls into and no other (`Ledger.Represents.writeRange`).  Putting values or a text
is an allocation and a write to what was allocated, which cannot fail any more (`Ledger.Represents.fill`).
-/

namespace Bindery.Arena

open Steps FileSystem

/-- An arena is mapped for writing, by a given mapping, and holds a ledger. -/
structure Ledger.Represents (l : Ledger) (m : Mapping) (s : State) : Prop extends l.HeldBy s where
  mapping : s.arena.mapping = some m
  writable : m.mode = .readWrite
  known : m.file < s.fs.files.length
  size_le_length : s.arena.size ≤ m.length
  length_le : m.length ≤ maxCapacity

/-! ### Rounding up -/

theorem le_roundUp (n : Nat) {align : Nat} (h : 0 < align) : n ≤ roundUp n align := by
  unfold roundUp
  have := Nat.div_add_mod (n + align - 1) align
  have := Nat.mod_lt (n + align - 1) h
  rw [Nat.mul_comm align] at *
  omega

theorem roundUp_mod (n align : Nat) : roundUp n align % align = 0 := by
  unfold roundUp
  exact Nat.mul_mod_left _ _

theorem length_flatten_of_forall {n : Nat} {values : List (List UInt8)} (h : ∀ v ∈ values, v.length = n) :
    values.flatten.length = n * values.length := by
  induction values with
  | nil => simp
  | cons v values ih =>
    have hv := h v List.mem_cons_self
    have := ih fun w hw => h w (List.mem_cons_of_mem _ hw)
    rw [List.flatten_cons, List.length_append, hv, this, List.length_cons, Nat.mul_add, Nat.mul_one, Nat.add_comm]

/-! ### Texts -/

theorem pushText_of_nul {text : String} (h0 : 0 ∈ Text.encode text) (s : State) :
    pushText text s = .error (.invalidArgument .interiorNul) s := by
  unfold pushText
  rw [if_pos h0]
  rfl

/-- A text is written without the zero byte behind it, which the zeroed room has already. -/
theorem pushText_eq {text : String} (h0 : 0 ∉ Text.encode text) :
    pushText text = allocate .byte ((Text.encode text).length + 1) >>= fun o =>
      writeRange .byte o (spanLength .byte ((Text.encode text).map fun b => [b]).length) (Text.encode text) >>=
        fun _ => pure o := by
  have hflat : ((Text.encode text).map fun b => [b]).flatten = Text.encode text := List.flatMap_singleton' _
  unfold pushText writeAll
  rw [if_neg h0, hflat]

theorem length_encode_eq_span (text : String) (hw : Layout.byte.size * ((Text.encode text).length + 1) ≤ maxWord) :
    (Text.encode text).length = spanLength .byte ((Text.encode text).map fun b => [b]).length := by
  rw [List.length_map, spanLength_of_le (Nat.le_trans (Nat.mul_le_mul_left _ (Nat.le_succ _)) hw)]
  exact (Nat.one_mul _).symm

namespace Ledger.Represents

variable {l : Ledger} {m : Mapping} {s : State} {b : Block}

theorem writableMapping_eq (h : l.Represents m s) : s.arena.writableMapping = .ok m :=
  writableMapping_eq_ok.2 ⟨h.mapping, h.writable⟩

theorem capacity_eq (h : l.Represents m s) : s.arena.capacity = m.length := by
  unfold capacity
  rw [h.mapping]

theorem disjoint (h : l.Represents m s) {b' : Block} (hb : b ∈ l) (hb' : b' ∈ l) (hne : b ≠ b') :
    b.stop ≤ b'.start ∨ b'.stop ≤ b.start := by
  have : Std.Symm fun a c : Block => a.stop ≤ c.start ∨ c.stop ≤ a.start := ⟨fun _ _ h => h.symm⟩
  have hapart : l.Pairwise fun a c => a.stop ≤ c.start ∨ c.stop ≤ a.start := h.apart.imp fun h => Or.inl h
  exact hapart.forall hb hb' hne

/-- Cutting the file down to what is allocated loses no block. -/
theorem writtenIn_resize (h : l.Represents m s) :
    l.WrittenIn ((s.fs.file m.file).content.resize s.arena.size) where
  size_le := h.size_le
  fits := h.fits
  apart := h.apart
  stored b hb := by
    have hstored := h.stored b hb
    rw [State.bytes_eq h.mapping] at hstored
    rw [Content.slice_resize_of_le _ (h.fits b hb).stop_le, hstored]

/-! ### Allocating -/

/-- Room that is handed out is a new block of zeros behind all others. -/
theorem allocate (h : l.Represents m s) (layout : Layout) (count : Nat) :
    (∃ o s', Arena.allocate layout count s = .ok o s' ∧ o = .ofPosition (roundUp s.arena.size layout.align) ∧
      s'.arena.size = o.position + layout.size * count ∧
      Represents (l ++ [⟨layout, count, o, List.replicate (layout.size * count) 0⟩]) m s') ∨
    ∃ e, Arena.allocate layout count s = .error e s := by
  rw [allocate_apply, h.writableMapping_eq]
  split
  · exact .inr ⟨_, rfl⟩
  next hzero =>
  dsimp only
  split
  case isFalse => exact .inr ⟨_, rfl⟩
  next hfits =>
  obtain ⟨hword, hend⟩ := hfits
  rw [spanLength_of_le hword, h.capacity_eq] at hend
  rw [spanLength_of_le hword]
  refine .inl ⟨_, _, rfl, rfl, ?_⟩
  have hsize := h.size_le_length
  have hcap := h.length_le
  have hle := le_roundUp s.arena.size layout.align_pos
  have hmod := roundUp_mod s.arena.size layout.align
  have hpos : 0 < layout.size * count := Nat.mul_pos (by omega) (by omega)
  generalize roundUp s.arena.size layout.align = start at *
  -- the capacity bounds the position, so that 32 bits hold it
  have hstart : (Offset.ofPosition start).position = start := Offset.position_ofPosition (by omega)
  refine ⟨by rw [hstart]; rfl, ⟨h.isOpen, Nat.le_trans hend hcap, ?_, ?_, ?_⟩, h.mapping, h.writable, ?_, hend,
    hcap⟩
  · intro b hb
    rcases List.mem_append.1 hb with hb | hb
    · refine (h.fits b hb).mono ?_
      show s.arena.size ≤ start + layout.size * count
      omega
    · rw [List.mem_singleton.1 hb]
      refine ⟨?_, by simp, by simpa using hpos, ?_⟩
      · show (Offset.ofPosition start).position % layout.align = 0
        rw [hstart, hmod]
      · show (Offset.ofPosition start).position + (List.replicate _ _).length ≤ start + layout.size * count
        exact Nat.le_of_eq (by rw [hstart, List.length_replicate])
  · refine List.pairwise_append.2 ⟨h.apart, List.pairwise_singleton _ _, fun b hb b' hb' => ?_⟩
    rw [List.mem_singleton.1 hb']
    have := (h.fits b hb).stop_le
    show b.stop ≤ (Offset.ofPosition start).position
    omega
  · intro b hb
    rw [State.bytes_reserved h.mapping h.known]
    rcases List.mem_append.1 hb with hb | hb
    · -- the zeros begin where the old blocks end
      have hstop := (h.fits b hb).stop_le
      have hstored := h.stored b hb
      rw [State.bytes_eq h.mapping] at hstored
      rw [Content.slice_zeroFill_of_le _ hstop, hstored]
    · rw [List.mem_singleton.1 hb]
      show Content.slice _ (Offset.ofPosition start).position (List.replicate _ _).length = _
      rw [hstart, List.length_replicate, Content.slice_zeroFill_self _ hle (Nat.le_refl _)]
  · show m.file < (s.fs.zeroAt _ _ _).files.length
    simpa [zeroAt, modifyFile] using h.known

/-! ### Writing -/

private theorem writeAt (h : l.Represents m s) (hb : b ∈ l) {o : Offset} {bytes : List UInt8}
    (hc : b.Covers o bytes.length) :
    Represents (l.map (·.overwrite o bytes)) m { s with fs := s.fs.writeAt m.file o.position bytes } := by
  refine ⟨⟨h.isOpen, h.size_le, ?_, ?_, ?_⟩, h.mapping, h.writable, ?_, h.size_le_length, h.length_le⟩
  · intro b' hb'
    obtain ⟨b, hb, rfl⟩ := List.mem_map.1 hb'
    exact (h.fits b hb).overwrite o bytes
  · rw [List.pairwise_map]
    refine h.apart.imp fun hab => ?_
    simpa using hab
  · intro b' hb'
    obtain ⟨a, ha, rfl⟩ := List.mem_map.1 hb'
    rw [State.bytes_writeAt h.mapping h.known, Block.start_overwrite, Block.length_overwrite]
    have hstored := h.stored a ha
    rw [State.bytes_eq h.mapping] at hstored
    unfold Block.overwrite
    split
    · next hca =>
      obtain ⟨i, hi⟩ := Nat.exists_eq_add_of_le hca.1
      have hin : i + bytes.length ≤ a.bytes.length := by
        have := hca.2
        unfold Block.stop at this
        omega
      rw [hi, Content.slice_overwrite_inside _ hin, hstored, Nat.add_sub_cancel_left]
    · next hca =>
      -- the bytes fall into `b`, so they lie beside every other block
      have hne : a ≠ b := by rintro rfl; exact hca hc
      have hbeside : a.start + a.bytes.length ≤ o.position ∨ o.position + bytes.length ≤ a.start := by
        rcases h.disjoint ha hb hne with hd | hd
        · exact .inl (Nat.le_trans hd hc.1)
        · exact .inr (Nat.le_trans hc.2 hd)
      rw [Content.slice_overwrite_of_disjoint _ _ _ _ _ hbeside, hstored]
  · show m.file < (s.fs.writeAt _ _ _).files.length
    unfold FileSystem.writeAt
    split
    · exact h.known
    · simpa [modifyFile] using h.known

theorem writeRange (h : l.Represents m s) (layout : Layout) {o : Offset} {bytes : List UInt8} {len : Nat}
    (hb : ∃ b ∈ l, b.Covers o len) (hlen : bytes.length = len) :
    (∃ s', Arena.writeRange layout o len bytes s = .ok () s' ∧ s'.arena = s.arena ∧
      Represents (l.map (·.overwrite o bytes)) m s') ∨
    ∃ e, Arena.writeRange layout o len bytes s = .error e s := by
  obtain ⟨b, hb, hc⟩ := hb
  rw [writeRange_apply, h.writableMapping_eq]
  cases hp : s.arena.positionOf o len with
  | error e => exact .inr ⟨e, rfl⟩
  | ok pos =>
    obtain ⟨-, -, -, rfl⟩ := positionOf_eq_ok.1 hp
    dsimp only
    split
    · refine .inl ⟨_, rfl, rfl, h.writeAt hb ?_⟩
      rwa [hlen]
    · exact .inr ⟨_, rfl⟩

/-- A write to the front of the last block succeeds, and no other block notices. -/
theorem writeRange_last {layout : Layout} {count : Nat} {o : Offset} {old bytes : List UInt8} {len : Nat}
    (h : Represents (l ++ [⟨layout, count, o, old⟩]) m s) (hlen : bytes.length = len) (hle : len ≤ old.length) :
    ∃ s', Arena.writeRange layout o len bytes s = .ok () s' ∧ s'.arena = s.arena ∧
      Represents (l ++ [⟨layout, count, o, bytes ++ old.drop len⟩]) m s' := by
  have hmem : (⟨layout, count, o, old⟩ : Block) ∈ l ++ [⟨layout, count, o, old⟩] :=
    List.mem_append_right _ (List.mem_singleton.2 rfl)
  have hf := h.fits _ hmem
  have hc : (⟨layout, count, o, old⟩ : Block).Covers o len := ⟨Nat.le_refl _, Nat.add_le_add_left hle _⟩
  have hpos : s.arena.positionOf o len = .ok o.position := by
    rw [positionOf_eq_ok]
    exact ⟨h.isOpen, Offset.ne_null (h.offset_lt hmem), Nat.le_trans hc.2 hf.stop_le, rfl⟩
  have ha : o.position % layout.align = 0 := hf.aligned
  -- none of the checks that can refuse a write refuses this one
  rw [writeRange_apply, hpos, h.writableMapping_eq]
  dsimp only
  rw [if_pos ha]
  refine ⟨_, rfl, rfl, ?_⟩
  subst hlen
  have hw := h.writeAt hmem hc
  have hmap := map_overwrite_offset h.apart hf.length_pos hle
  rwa [hmap] at hw

/-- Allocating and writing to the front of what was allocated, in one. -/
theorem fill (h : l.Represents m s) (layout : Layout) (count : Nat) {bytes : List UInt8} {len : Nat}
    (hle : bytes.length ≤ layout.size * count) (hlen : layout.size * count ≤ maxWord → bytes.length = len) :
    (∃ o s', (Arena.allocate layout count >>= fun o => Arena.writeRange layout o len bytes >>= fun _ => pure o) s =
        .ok o s' ∧
      o = .ofPosition (roundUp s.arena.size layout.align) ∧ s'.arena.size = o.position + layout.size * count ∧
      Represents (l ++ [⟨layout, count, o, bytes ++ List.replicate (layout.size * count - bytes.length) 0⟩]) m s') ∨
    ∃ e, (Arena.allocate layout count >>= fun o => Arena.writeRange layout o len bytes >>= fun _ => pure o) s =
      .error e s := by
  rw [bind_apply]
  rcases h.allocate layout count with ⟨o, s₁, ha, ho, hs₁, h₁⟩ | ⟨e, he⟩
  · rw [ha]
    have hword : layout.size * count ≤ maxWord :=
      h₁.size_mul_count_le (List.mem_append_right _ (List.mem_singleton.2 rfl))
    obtain rfl := hlen hword
    obtain ⟨s₂, hw, hs₂, h₂⟩ := h₁.writeRange_last rfl (by simpa using hle)
    refine .inl ⟨o, s₂, ?_, ho, by rw [hs₂, hs₁], ?_⟩
    · dsimp only
      rw [bind_apply, hw]
      rfl
    · rwa [List.drop_replicate] at h₂
  · exact .inr ⟨e, by rw [he]⟩

theorem pushAll (h : l.Represents m s) {layout : Layout} {values : List (List UInt8)}
    (hv : ∀ v ∈ values, v.length = layout.size) :
    (∃ o s', Arena.pushAll layout values s = .ok o s' ∧ o = .ofPosition (roundUp s.arena.size layout.align) ∧
      s'.arena.size = o.position + layout.size * values.length ∧
      Represents (l ++ [⟨layout, values.length, o, values.flatten⟩]) m s') ∨
    ∃ e, Arena.pushAll layout values s = .error e s := by
  have hlen := length_flatten_of_forall hv
  have hspan (hw : layout.size * values.length ≤ maxWord) :
      values.flatten.length = spanLength layout values.length := by
    rw [hlen, spanLength_of_le hw]
  have h' := h.fill layout values.length (Nat.le_of_eq hlen) hspan
  rw [hlen, Nat.sub_self, List.replicate_zero, List.append_nil] at h'
  exact h'

theorem push (h : l.Represents m s) {layout : Layout} {value : List UInt8} (hv : value.length = layout.size) :
    (∃ o s', Arena.push layout value s = .ok o s' ∧ o = .ofPosition (roundUp s.arena.size layout.align) ∧
      s'.arena.size = o.position + layout.size * 1 ∧ Represents (l ++ [⟨layout, 1, o, value⟩]) m s') ∨
    ∃ e, Arena.push layout value s = .error e s := by
  have hlen : value.length = layout.size * 1 := hv.trans (Nat.mul_one _).symm
  have h' := h.fill layout 1 (Nat.le_of_eq hlen) fun _ => hv
  rw [hlen, Nat.sub_self, List.replicate_zero, List.append_nil] at h'
  exact h'

/-- Room for a text and a zero byte behind it, with the text in it. -/
theorem pushText (h : l.Represents m s) (text : String) :
    (∃ o s', Arena.pushText text s = .ok o s' ∧
      Represents (l ++ [⟨.byte, (Text.encode text).length + 1, o, Text.encode text ++ [0]⟩]) m s') ∨
    ∃ e, Arena.pushText text s = .error e s := by
  by_cases h0 : 0 ∈ Text.encode text
  · exact .inr ⟨.invalidArgument .interiorNul, by rw [pushText_of_nul h0]⟩
  have hsize : Layout.byte.size * ((Text.encode text).length + 1) = (Text.encode text).length + 1 := Nat.one_mul _
  rw [pushText_eq h0]
  rcases h.fill .byte _ (show (Text.encode text).length ≤ _ by omega) (length_encode_eq_span text) with
    ⟨o, s', ho, -, -, h'⟩ | ⟨e, he⟩
  · rw [hsize, Nat.add_sub_cancel_left] at h'
    exact .inl ⟨o, s', ho, h'⟩
  · exact .inr ⟨e, he⟩

end Ledger.Represents

end Bindery.Arena
