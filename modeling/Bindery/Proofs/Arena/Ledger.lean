import Bindery.Proofs.Arena.Reach
import Bindery.Proofs.FileSystem.Slices

/-!
# Ledgers

A ledger lists what was allocated in an arena, in order: where each block lies, how many values of which layout it
has room for, and the bytes last written to it.  An arena holds a ledger (`Ledger.HeldBy`) when the blocks lie one
behind the other in the allocated region and their bytes are in the file.  Then every block reads back, whatever
the mapping allows (`Ledger.HeldBy.readsBack`).
-/

namespace Bindery.Arena

/-- Room that was handed out, with the bytes last written to it. -/
structure Block where
  layout : Layout
  count : Nat
  offset : Offset
  bytes : List UInt8
  deriving DecidableEq

/-- The blocks of an arena, in the order in which they were allocated. -/
abbrev Ledger := List Block

namespace Block

def start (b : Block) : Nat := b.offset.position

/-- The position behind a block's last byte. -/
def stop (b : Block) : Nat := b.start + b.bytes.length

/-- So many bytes at an offset are bytes of a block. -/
def Covers (b : Block) (offset : Offset) (len : Nat) : Prop :=
  b.start ≤ offset.position ∧ offset.position + len ≤ b.stop

instance (b : Block) (offset : Offset) (len : Nat) : Decidable (b.Covers offset len) :=
  inferInstanceAs (Decidable (_ ∧ _))

/-- A block after bytes were written at an offset: if they belong to it, they take the place of its own. -/
def overwrite (b : Block) (offset : Offset) (bytes : List UInt8) : Block :=
  if b.Covers offset bytes.length then
    { b with
      bytes := b.bytes.take (offset.position - b.start) ++ bytes ++
        b.bytes.drop (offset.position - b.start + bytes.length) }
  else b

/-- A block lies at a multiple of its alignment in an allocated region of a size and has room for its values. -/
structure Fits (b : Block) (size : Nat) : Prop where
  aligned : b.start % b.layout.align = 0
  length : b.bytes.length = b.layout.size * b.count
  length_pos : 0 < b.bytes.length
  stop_le : b.stop ≤ size

@[simp] theorem layout_overwrite (b : Block) (o : Offset) (bytes : List UInt8) :
    (b.overwrite o bytes).layout = b.layout := by
  unfold overwrite; split <;> rfl

@[simp] theorem count_overwrite (b : Block) (o : Offset) (bytes : List UInt8) :
    (b.overwrite o bytes).count = b.count := by
  unfold overwrite; split <;> rfl

@[simp] theorem start_overwrite (b : Block) (o : Offset) (bytes : List UInt8) :
    (b.overwrite o bytes).start = b.start := by
  unfold overwrite; split <;> rfl

@[simp] theorem length_overwrite (b : Block) (o : Offset) (bytes : List UInt8) :
    (b.overwrite o bytes).bytes.length = b.bytes.length := by
  unfold overwrite
  split
  · next h =>
    obtain ⟨h₁, h₂⟩ := h
    unfold stop at h₂
    simp only [List.length_append, List.length_take, List.length_drop]
    omega
  · rfl

@[simp] theorem stop_overwrite (b : Block) (o : Offset) (bytes : List UInt8) :
    (b.overwrite o bytes).stop = b.stop := by
  unfold stop; simp

theorem overwrite_of_stop_le {b : Block} {o : Offset} {bytes : List UInt8} (h : b.stop ≤ o.position) :
    b.overwrite o bytes = b := by
  unfold overwrite
  split
  · next hc =>
    -- bytes that begin at the block's end or behind it belong to it only if there are none
    have hnil : bytes = [] := by
      apply List.eq_nil_of_length_eq_zero
      have := hc.2
      omega
    subst hnil
    simp
  · rfl

theorem overwrite_of_lt_start {b : Block} {o : Offset} {bytes : List UInt8} (h : o.position < b.start) :
    b.overwrite o bytes = b := by
  unfold overwrite
  rw [if_neg]
  rintro ⟨hc, -⟩
  omega

/-- Bytes at a block's own offset take the place of its first ones. -/
theorem overwrite_offset {b : Block} {bytes : List UInt8} (h : bytes.length ≤ b.bytes.length) :
    b.overwrite b.offset bytes = { b with bytes := bytes ++ b.bytes.drop bytes.length } := by
  have hc : b.Covers b.offset bytes.length := ⟨Nat.le_refl _, Nat.add_le_add_left h _⟩
  unfold overwrite
  rw [if_pos hc]
  simp [start]

theorem Fits.overwrite {b : Block} {size : Nat} (h : b.Fits size) (o : Offset) (bytes : List UInt8) :
    (b.overwrite o bytes).Fits size where
  aligned := by simpa using h.aligned
  length := by simpa using h.length
  length_pos := by simpa using h.length_pos
  stop_le := by simpa using h.stop_le

theorem Fits.mono {b : Block} {size size' : Nat} (h : b.Fits size) (hs : size ≤ size') : b.Fits size' :=
  ⟨h.aligned, h.length, h.length_pos, Nat.le_trans h.stop_le hs⟩

/-- What reading at a block's offset answers: all its values, the first one, and a text that ends in it. -/
structure ReadsBack (b : Block) (s : State) : Prop where
  getAll : s.getAll b.layout b.offset b.count = .ok b.bytes
  get : s.get b.layout b.offset = .ok (b.bytes.take b.layout.size)
  getText : ∀ text rest, 0 ∉ Text.encode text → b.bytes = Text.encode text ++ 0 :: rest →
    s.getText b.offset = .ok text

end Block

/-! ### Bytes written to one of several blocks -/

section Map

variable {front behind : Ledger} {b : Block} {o : Offset} {bytes : List UInt8}

theorem map_overwrite_of_stop_le (h : ∀ a ∈ front, a.stop ≤ o.position) :
    front.map (·.overwrite o bytes) = front := by
  rw [List.map_congr_left (g := id), List.map_id]
  intro a ha
  exact Block.overwrite_of_stop_le (h a ha)

/-- Bytes at the offset of one block take the place of its first ones, and no other block notices. -/
theorem map_overwrite_offset (h : (front ++ b :: behind).Pairwise fun a c => a.stop ≤ c.start)
    (hpos : 0 < b.bytes.length) (hle : bytes.length ≤ b.bytes.length) :
    (front ++ b :: behind).map (·.overwrite b.offset bytes) =
      front ++ { b with bytes := bytes ++ b.bytes.drop bytes.length } :: behind := by
  obtain ⟨-, hb, hfront⟩ := List.pairwise_append.1 h
  have h₁ : front.map (·.overwrite b.offset bytes) = front :=
    map_overwrite_of_stop_le fun a ha => hfront a ha b List.mem_cons_self
  have h₂ : behind.map (·.overwrite b.offset bytes) = behind := by
    rw [List.map_congr_left (g := id), List.map_id]
    intro a ha
    apply Block.overwrite_of_lt_start
    have hstop : b.stop ≤ a.start := (List.pairwise_cons.1 hb).1 a ha
    have hlt : b.start < b.stop := Nat.lt_add_of_pos_right hpos
    exact Nat.lt_of_lt_of_le hlt hstop
  rw [List.map_append, List.map_cons, h₁, h₂, Block.overwrite_offset hle]

end Map

/-! ### Offsets -/

theorem Offset.position_ofPosition {n : Nat} (h : n ≤ maxCapacity) : (Offset.ofPosition n).position = n := by
  unfold maxCapacity at h
  unfold ofPosition position
  rw [UInt32.toNat_ofNat']
  omega

theorem Offset.ne_null {o : Offset} (h : o.position < maxCapacity) : o ≠ .null := by
  rintro rfl
  exact absurd h (by decide)

theorem positionOf_eq_ok {a : Arena} {o : Offset} {len pos : Nat} :
    a.positionOf o len = .ok pos ↔ a.isOpen = true ∧ o ≠ .null ∧ o.position + len ≤ a.size ∧ pos = o.position := by
  unfold positionOf Offset.isNull
  by_cases h₁ : a.isOpen = true
  · by_cases h₂ : o = .null
    · simp [h₁, h₂]
    · by_cases h₃ : a.size < o.position + len
      · have h₄ : ¬ o.position + len ≤ a.size := by omega
        simp [h₁, h₂, h₃, h₄]
      · have h₄ : o.position + len ≤ a.size := by omega
        have (pos : Nat) : o.position = pos ↔ pos = o.position := ⟨Eq.symm, Eq.symm⟩
        simp [h₁, h₂, h₃, h₄, this]
  · simp [h₁]

theorem spanLength_of_le {layout : Layout} {count : Nat} (h : layout.size * count ≤ maxWord) :
    spanLength layout count = layout.size * count := Nat.min_eq_left h

/-! ### Reading blocks -/

/-- The blocks of a ledger lie one behind the other in the allocated region of an arena, and their bytes are in
the mapped file. -/
structure Ledger.HeldBy (l : Ledger) (s : State) : Prop where
  isOpen : s.arena.isOpen = true
  size_le : s.arena.size ≤ maxCapacity
  fits : ∀ b ∈ l, b.Fits s.arena.size
  apart : l.Pairwise fun a b => a.stop ≤ b.start
  stored : ∀ b ∈ l, s.bytes b.start b.bytes.length = b.bytes

theorem State.bytes_eq {s : State} {m : Mapping} (h : s.arena.mapping = some m) (pos n : Nat) :
    s.bytes pos n = (s.fs.file m.file).content.slice pos n := by
  unfold State.bytes
  rw [h]

/-- What is in the mapped file once room has been handed out up to an end. -/
theorem State.bytes_reserved {s : State} {m : Mapping} (h : s.arena.mapping = some m)
    (hknown : m.file < s.fs.files.length) (stop pos n : Nat) :
    (s.reserved m.file stop).bytes pos n = ((s.fs.file m.file).content.zeroFill s.arena.size stop).slice pos n := by
  rw [State.bytes_eq (s := s.reserved m.file stop) h]
  unfold State.reserved FileSystem.zeroAt
  rw [FileSystem.file_modifyFile _ _ _ _ hknown, if_pos rfl]

/-- What is in the mapped file once bytes have been written to it. -/
theorem State.bytes_writeAt {s : State} {m : Mapping} (h : s.arena.mapping = some m)
    (hknown : m.file < s.fs.files.length) (lo : Nat) (bytes : List UInt8) (pos n : Nat) :
    State.bytes ⟨s.fs.writeAt m.file lo bytes, s.arena⟩ pos n =
      ((s.fs.file m.file).content.overwrite lo bytes).slice pos n := by
  rw [State.bytes_eq (s := ⟨s.fs.writeAt m.file lo bytes, s.arena⟩) h]
  unfold FileSystem.writeAt
  split
  · next hnil => subst hnil; unfold FileSystem.Content.slice; simp [FileSystem.Content.byteAt_overwrite]
  · rw [FileSystem.file_modifyFile _ _ _ _ hknown, if_pos rfl]

/-- The bytes before the first zero byte of a slice. -/
theorem bytesToNul?_eq_some_iff {content : FileSystem.Content} {pos n : Nat} {bytes : List UInt8} :
    State.bytesToNul? content pos n = some bytes ↔ 0 ∉ bytes ∧ bytes ++ [0] <+: content.slice pos n := by
  induction n generalizing pos bytes with
  | zero => simp [State.bytesToNul?, FileSystem.Content.slice]
  | succ n ih =>
    unfold State.bytesToNul?
    rw [FileSystem.Content.slice_succ]
    cases bytes with
    | nil =>
      rw [List.nil_append, List.cons_prefix_cons]
      split
      · next hz => simp [hz]
      · next hz => simp [Ne.symm hz]
    | cons b bytes =>
      rw [List.cons_append, List.cons_prefix_cons, List.mem_cons, not_or]
      split
      · next hz => simp [hz]; grind
      · next hz =>
        rw [Option.map_eq_some_iff]
        constructor
        · rintro ⟨rest, hrest, heq⟩
          obtain ⟨rfl, rfl⟩ := List.cons.inj heq
          obtain ⟨h0, hpre⟩ := ih.1 hrest
          exact ⟨⟨Ne.symm hz, h0⟩, rfl, hpre⟩
        · rintro ⟨⟨-, h0⟩, rfl, hpre⟩
          exact ⟨bytes, ih.2 ⟨h0, hpre⟩, rfl⟩

theorem bytesToNul?_congr {c d : FileSystem.Content} {pos n : Nat} (h : c.slice pos n = d.slice pos n) :
    State.bytesToNul? c pos n = State.bytesToNul? d pos n := by
  apply Option.ext
  intro bytes
  rw [bytesToNul?_eq_some_iff, bytesToNul?_eq_some_iff, h]

namespace Ledger.HeldBy

variable {l : Ledger} {s : State} {b : Block}

theorem offset_lt (h : l.HeldBy s) (hb : b ∈ l) : b.start < maxCapacity := by
  have h₁ := (h.fits b hb).stop_le
  have h₂ := (h.fits b hb).length_pos
  have h₃ := h.size_le
  unfold Block.stop at h₁
  omega

theorem readRange_eq (h : l.HeldBy s) (hb : b ∈ l) {layout : Layout} {o : Offset} {len : Nat} (hlen : 0 < len)
    (hc : b.Covers o len) (ha : o.position % layout.align = 0) :
    s.readRange layout o len = .ok ((b.bytes.drop (o.position - b.start)).take len) := by
  obtain ⟨h₁, h₂⟩ := hc
  have hstop := (h.fits b hb).stop_le
  have hnull : o ≠ .null := by
    apply Offset.ne_null
    have := h.size_le
    omega
  have hpos : s.arena.positionOf o len = .ok o.position := by
    rw [positionOf_eq_ok]
    exact ⟨h.isOpen, hnull, by omega, rfl⟩
  unfold State.readRange
  rw [hpos]
  simp only [ha, if_true, Except.ok.injEq]
  have hstored := h.stored b hb
  unfold Block.stop at h₂
  obtain ⟨m, hm⟩ := Option.isSome_iff_exists.1 h.isOpen
  rw [State.bytes_eq hm] at hstored ⊢
  rw [← hstored, FileSystem.Content.take_drop_slice _ (by omega)]
  congr 1
  omega

theorem size_mul_count_le (h : l.HeldBy s) (hb : b ∈ l) : b.layout.size * b.count ≤ maxWord := by
  have h₁ := (h.fits b hb).stop_le
  have h₂ := h.size_le
  unfold Block.stop at h₁
  rw [← (h.fits b hb).length]
  exact Nat.le_trans (by omega) (show maxCapacity ≤ maxWord by decide)

private theorem layoutSize_le (h : l.HeldBy s) (hb : b ∈ l) :
    0 < b.layout.size ∧ b.layout.size ≤ b.bytes.length := by
  have hlen := (h.fits b hb).length
  have hpos := (h.fits b hb).length_pos
  have hsize : 0 < b.layout.size := Nat.pos_of_ne_zero fun h => by rw [h, Nat.zero_mul] at hlen; omega
  have hcount : 0 < b.count := Nat.pos_of_ne_zero fun h => by rw [h, Nat.mul_zero] at hlen; omega
  exact ⟨hsize, hlen ▸ Nat.le_mul_of_pos_right _ hcount⟩

/-- A block of a ledger that an arena holds reads back. -/
theorem readsBack (h : l.HeldBy s) (hb : b ∈ l) : b.ReadsBack s := by
  have hf := h.fits b hb
  refine ⟨?_, ?_, fun text rest h0 hbytes => ?_⟩
  · unfold State.getAll
    rw [spanLength_of_le (h.size_mul_count_le hb), ← hf.length,
      h.readRange_eq hb hf.length_pos ⟨Nat.le_refl _, Nat.le_refl _⟩ hf.aligned]
    show Except.ok ((b.bytes.drop (b.start - b.start)).take b.bytes.length) = _
    rw [Nat.sub_self, List.drop_zero, List.take_length]
  · obtain ⟨hsize, hle⟩ := layoutSize_le h hb
    unfold State.get
    rw [h.readRange_eq hb hsize ⟨Nat.le_refl _, Nat.add_le_add_left hle _⟩ hf.aligned]
    show Except.ok ((b.bytes.drop (b.start - b.start)).take _) = _
    rw [Nat.sub_self, List.drop_zero]
  · obtain ⟨m, hm⟩ := Option.isSome_iff_exists.1 h.isOpen
    have hlen : b.bytes.length = (Text.encode text).length + 1 + rest.length := by
      rw [hbytes]; simp; omega
    have hstop := hf.stop_le
    unfold Block.stop at hstop
    have hpos : s.arena.positionOf b.offset 1 = .ok b.start := by
      rw [positionOf_eq_ok]
      refine ⟨h.isOpen, Offset.ne_null (h.offset_lt hb), ?_, rfl⟩
      show b.start + 1 ≤ _
      omega
    -- the search for a zero byte ends at the one behind the text, which has none itself
    have hslice : (s.fs.file m.file).content.slice b.start ((Text.encode text).length + 1) =
        Text.encode text ++ [0] := by
      have hstored := h.stored b hb
      rw [State.bytes_eq hm, hlen, FileSystem.Content.slice_add, hbytes, List.append_cons] at hstored
      exact (List.append_inj hstored (by simp)).1
    have hpre : Text.encode text ++ [0] <+: (s.fs.file m.file).content.slice b.start (s.arena.size - b.start) := by
      have hle : (Text.encode text).length + 1 ≤ s.arena.size - b.start := by omega
      obtain ⟨k, hk⟩ := Nat.exists_eq_add_of_le hle
      rw [hk, FileSystem.Content.slice_add, hslice]
      exact List.prefix_append _ _
    unfold State.getText
    rw [hpos]
    simp only [hm, bytesToNul?_eq_some_iff.2 ⟨h0, hpre⟩, Option.bind_some, Text.decode?_encode]

end Ledger.HeldBy

/-- The blocks of a ledger lie one behind the other in a content, and their bytes are there. -/
structure Ledger.WrittenIn (l : Ledger) (content : FileSystem.Content) : Prop where
  size_le : content.size ≤ maxCapacity
  fits : ∀ b ∈ l, b.Fits content.size
  apart : l.Pairwise fun a b => a.stop ≤ b.start
  stored : ∀ b ∈ l, content.slice b.start b.bytes.length = b.bytes

/-- A file mapped for reading holds what was written in it. -/
theorem Ledger.WrittenIn.heldBy {l : Ledger} {fs : FileSystem} {id : Nat} (h : l.WrittenIn (fs.file id).content)
    (path : Path) :
    l.HeldBy ⟨fs, ⟨path, some ⟨.readOnly, id, (fs.file id).content.size⟩, (fs.file id).content.size⟩⟩ where
  isOpen := rfl
  size_le := h.size_le
  fits := h.fits
  apart := h.apart
  stored := h.stored

end Bindery.Arena
