import Bindery.Proofs.Arena.Ledger
import Mathlib.Data.List.Infix

/-!
# The allocated region

What an arena answers depends on the bytes that are allocated in it (`State.allocated`) and on nothing else in its
file: a reading takes a range of them (`State.readRange_eq_ok`), or the text at the front of a tail of them
(`State.getText_eq_ok`).  So whatever can be read from an arena can be read from every other one whose allocated
bytes begin with the same ones (`State.Within`), be it mapped otherwise, from another file, or longer.  If they are the
same ones, nothing that can be read tells the two apart, errors included (`State.Alike`).
-/

namespace Bindery.Arena

open Steps FileSystem

variable {s t : State} {m : Mapping} {layout : Layout} {o : Offset} {len : Nat}

/-! ### Reading -/

/-- The bytes that are allocated. -/
def State.allocated (s : State) : List UInt8 := s.bytes 0 s.arena.size

theorem State.allocated_eq (h : s.arena.mapping = some m) :
    s.allocated = (s.fs.file m.file).content.slice 0 s.arena.size := State.bytes_eq h 0 _

theorem State.length_allocated (h : s.arena.mapping = some m) : s.allocated.length = s.arena.size := by
  rw [State.allocated_eq h, Content.length_slice]

theorem State.bytes_eq_allocated (h : s.arena.mapping = some m) {pos n : Nat} (hle : pos + n ≤ s.arena.size) :
    s.bytes pos n = (s.allocated.drop pos).take n := by
  rw [State.allocated_eq h, State.bytes_eq h, Content.take_drop_slice _ hle, Nat.zero_add]

theorem State.bytes_eq_drop (h : s.arena.mapping = some m) (pos : Nat) :
    s.bytes pos (s.arena.size - pos) = s.allocated.drop pos := by
  have hlen : (s.allocated.drop pos).length = s.arena.size - pos := by
    rw [List.length_drop, State.length_allocated h]
  by_cases hle : pos ≤ s.arena.size
  · rw [State.bytes_eq_allocated h (by omega), List.take_of_length_le (Nat.le_of_eq hlen)]
  · have hnone : s.arena.size - pos = 0 := by omega
    rw [List.eq_nil_of_length_eq_zero (hlen.trans hnone), hnone, State.bytes_eq h]
    rfl

/-- Room that is handed out is zero. -/
theorem State.allocated_reserved (h : s.arena.mapping = some m) (hknown : m.file < s.fs.files.length) {stop : Nat}
    (hsize : s.arena.size ≤ stop) :
    (s.reserved m.file stop).allocated = s.allocated ++ List.replicate (stop - s.allocated.length) 0 := by
  obtain ⟨k, rfl⟩ := Nat.exists_eq_add_of_le hsize
  rw [State.length_allocated h, State.allocated_eq h, Nat.add_sub_cancel_left]
  show (s.reserved m.file (s.arena.size + k)).bytes 0 (s.arena.size + k) = _
  rw [State.bytes_reserved h hknown, Content.slice_add, Content.slice_zeroFill_of_le _ (by omega),
    Content.slice_zeroFill_self _ (by omega) (by omega)]

theorem isOpen_eq_true {a : Arena} : a.isOpen = true ↔ ∃ m, a.mapping = some m := Option.isSome_iff_exists

theorem State.contents_eq_ok {bytes : List UInt8} :
    s.contents = .ok bytes ↔ s.arena.isOpen = true ∧ bytes = s.allocated := by
  unfold contents allocated
  split
  · next h => simp [h, eq_comm]
  · next h => simp [h]

theorem State.readRange_eq_ok {bytes : List UInt8} :
    s.readRange layout o len = .ok bytes ↔
      s.arena.isOpen = true ∧ o ≠ .null ∧ o.position + len ≤ s.arena.size ∧ o.position % layout.align = 0 ∧
        bytes = (s.allocated.drop o.position).take len := by
  unfold readRange
  constructor
  · intro h
    cases hp : s.arena.positionOf o len with
    | error e => rw [hp] at h; cases h
    | ok pos =>
      obtain ⟨hopen, hnull, hle, rfl⟩ := positionOf_eq_ok.1 hp
      obtain ⟨m, hm⟩ := isOpen_eq_true.1 hopen
      rw [hp] at h
      dsimp only at h
      split at h
      · next ha =>
        rw [State.bytes_eq_allocated hm hle] at h
        exact ⟨hopen, hnull, hle, ha, (Except.ok.inj h).symm⟩
      · cases h
  · rintro ⟨hopen, hnull, hle, ha, rfl⟩
    obtain ⟨m, hm⟩ := isOpen_eq_true.1 hopen
    rw [positionOf_eq_ok.2 ⟨hopen, hnull, hle, rfl⟩]
    dsimp only
    rw [if_pos ha, State.bytes_eq_allocated hm hle]

theorem State.readRange_of_le (h : s.arena.mapping = some m) (hnull : o ≠ .null) (hle : o.position + len ≤ s.arena.size)
    (ha : o.position % layout.align = 0) :
    s.readRange layout o len = .ok ((s.fs.file m.file).content.slice o.position len) := by
  rw [State.readRange_eq_ok, ← State.bytes_eq_allocated h hle, State.bytes_eq h]
  exact ⟨isOpen_eq_true.2 ⟨m, h⟩, hnull, hle, ha, rfl⟩

theorem State.getText_eq_ok {text : String} :
    s.getText o = .ok text ↔
      s.arena.isOpen = true ∧ o ≠ .null ∧
        ∃ bytes, 0 ∉ bytes ∧ bytes ++ [0] <+: s.allocated.drop o.position ∧ Text.decode? bytes = some text := by
  -- the bytes that are looked at are all those behind the offset
  have htail {m : Mapping} (hm : s.arena.mapping = some m) :
      (s.fs.file m.file).content.slice o.position (s.arena.size - o.position) = s.allocated.drop o.position := by
    rw [← State.bytes_eq hm, State.bytes_eq_drop hm]
  unfold getText
  constructor
  · intro h
    cases hp : s.arena.positionOf o 1 with
    | error e => rw [hp] at h; cases h
    | ok pos =>
      obtain ⟨hopen, hnull, hle, rfl⟩ := positionOf_eq_ok.1 hp
      obtain ⟨m, hm⟩ := isOpen_eq_true.1 hopen
      simp only [hp, hm] at h
      split at h
      · next found hfound =>
        obtain ⟨bytes, hbytes, hdecode⟩ := Option.bind_eq_some_iff.1 hfound
        obtain ⟨h0, hpre⟩ := bytesToNul?_eq_some_iff.1 hbytes
        rw [htail hm] at hpre
        obtain rfl := Except.ok.inj h
        exact ⟨hopen, hnull, bytes, h0, hpre, hdecode⟩
      · cases h
  · rintro ⟨hopen, hnull, bytes, h0, hpre, hdecode⟩
    obtain ⟨m, hm⟩ := isOpen_eq_true.1 hopen
    have hle : o.position + 1 ≤ s.arena.size := by
      have := hpre.length_le
      rw [List.length_append, List.length_singleton, List.length_drop, State.length_allocated hm] at this
      omega
    rw [← htail hm] at hpre
    rw [positionOf_eq_ok.2 ⟨hopen, hnull, hle, rfl⟩]
    simp only [hm, bytesToNul?_eq_some_iff.2 ⟨h0, hpre⟩, Option.bind_some, hdecode]

/-! ### Reading the same elsewhere -/

/-- An arena's allocated bytes are the first ones of another. -/
structure State.Within (s t : State) : Prop where
  isOpen : t.arena.isOpen = true
  isPrefix : s.allocated <+: t.allocated

namespace State.Within

theorem size_le (h : s.Within t) (hs : s.arena.isOpen = true) : s.arena.size ≤ t.arena.size := by
  obtain ⟨m, hm⟩ := isOpen_eq_true.1 hs
  obtain ⟨m', hm'⟩ := isOpen_eq_true.1 h.isOpen
  have := h.isPrefix.length_le
  rwa [State.length_allocated hm, State.length_allocated hm'] at this

theorem readRange {bytes : List UInt8} (h : s.Within t) (hr : s.readRange layout o len = .ok bytes) :
    t.readRange layout o len = .ok bytes := by
  obtain ⟨hopen, hnull, hle, ha, rfl⟩ := State.readRange_eq_ok.1 hr
  refine State.readRange_eq_ok.2 ⟨h.isOpen, hnull, Nat.le_trans hle (h.size_le hopen), ha, ?_⟩
  obtain ⟨m, hm⟩ := isOpen_eq_true.1 hopen
  have hlen := State.length_allocated hm
  obtain ⟨rest, hrest⟩ := h.isPrefix
  rw [← hrest, List.drop_append_of_le_length (by omega), List.take_append_of_le_length]
  rw [List.length_drop]
  omega

theorem getText {text : String} (h : s.Within t) (hr : s.getText o = .ok text) : t.getText o = .ok text := by
  obtain ⟨-, hnull, bytes, h0, hpre, hdecode⟩ := State.getText_eq_ok.1 hr
  exact State.getText_eq_ok.2 ⟨h.isOpen, hnull, bytes, h0, hpre.trans (h.isPrefix.drop _), hdecode⟩

end State.Within

/-! ### Reading the same everywhere -/

/-- Two arenas of which the same is allocated. -/
structure State.Alike (s t : State) : Prop where
  isOpen : t.arena.isOpen = s.arena.isOpen
  size : t.arena.size = s.arena.size
  allocated : t.allocated = s.allocated

namespace State.Alike

theorem positionOf (h : s.Alike t) : t.arena.positionOf o len = s.arena.positionOf o len := by
  unfold Arena.positionOf
  rw [h.isOpen, h.size]

theorem readRange (h : s.Alike t) : t.readRange layout o len = s.readRange layout o len := by
  unfold State.readRange
  rw [h.positionOf, h.size]
  cases hp : s.arena.positionOf o len with
  | error e => rfl
  | ok pos =>
    obtain ⟨hopen, -, hle, rfl⟩ := positionOf_eq_ok.1 hp
    obtain ⟨m, hm⟩ := isOpen_eq_true.1 hopen
    obtain ⟨m', hm'⟩ := isOpen_eq_true.1 (h.isOpen.trans hopen)
    dsimp only
    rw [State.bytes_eq_allocated hm hle, State.bytes_eq_allocated hm' (h.size ▸ hle), h.allocated]

theorem getText (h : s.Alike t) : t.getText o = s.getText o := by
  unfold State.getText
  rw [h.positionOf, h.size]
  cases hp : s.arena.positionOf o 1 with
  | error e => rfl
  | ok pos =>
    obtain ⟨hopen, -, hle, rfl⟩ := positionOf_eq_ok.1 hp
    obtain ⟨m, hm⟩ := isOpen_eq_true.1 hopen
    obtain ⟨m', hm'⟩ := isOpen_eq_true.1 (h.isOpen.trans hopen)
    have hbehind : o.position + (s.arena.size - o.position) ≤ s.arena.size := by omega
    have hsearch : State.bytesToNul? (t.fs.file m'.file).content o.position (s.arena.size - o.position) =
        State.bytesToNul? (s.fs.file m.file).content o.position (s.arena.size - o.position) := by
      apply bytesToNul?_congr
      rw [← State.bytes_eq hm, ← State.bytes_eq hm', State.bytes_eq_allocated hm hbehind,
        State.bytes_eq_allocated hm' (h.size ▸ hbehind), h.allocated]
    simp only [hm, hm', hsearch]

theorem contents (h : s.Alike t) : t.contents = s.contents := by
  have hall := h.allocated
  unfold State.allocated at hall
  unfold State.contents
  rw [h.isOpen, hall]

end State.Alike

end Bindery.Arena
