import Bindery.Proofs.Arena.Effects
import Bindery.Proofs.Arena.Lifecycle

/-!
# Offsets and positions

A call that hands out room reserves it from the first aligned position behind what is allocated, and answers the
offset of that position (`Call.appends_of_ok`), which is its low 32 bits.  They name the position, and are not the
null offset, exactly if the position is below the largest capacity (`Offset.names_iff`).  The room lies within the
mapping, and no call but those that map a file changes that (`mapping_runAll`).  So in every arena that was created,
and in every file that is opened and no longer than the largest capacity, offsets name what was handed out; in a
longer file they do as far as the largest capacity (`offset_names_start_iff`), and not behind it
(`offsets_wrap_in_longer_file`).
-/

namespace Bindery.Arena

open Steps FileSystem

/-! ### Offsets of positions -/

theorem Offset.position_le (o : Offset) : o.position ≤ maxCapacity := by
  have := o.raw.toNat_lt
  unfold position maxCapacity
  omega

/-- The offset of a position names it if it is below the largest capacity, and only then. -/
theorem Offset.names_iff (n : Nat) :
    (Offset.ofPosition n ≠ .null ∧ (Offset.ofPosition n).position = n) ↔ n < maxCapacity := by
  constructor
  · rintro ⟨hnull, hn⟩
    have hle : n ≤ maxCapacity := hn ▸ (Offset.ofPosition n).position_le
    refine Nat.lt_of_le_of_ne hle ?_
    rintro rfl
    exact hnull rfl
  · intro h
    have hn := Offset.position_ofPosition (Nat.le_of_lt h)
    exact ⟨Offset.ne_null (by rwa [hn]), hn⟩

/-! ### What is handed out -/

section Handout

variable {s s' : State} {layout : Layout} {count len : Nat} {o : Offset} {bytes : List UInt8} {a : Answer}

/-- Room is handed out if some is asked for, the arena is mapped for writing and the room is within the mapping. -/
theorem allocate_eq_ok :
    allocate layout count s = .ok o s' ↔
      ∃ m, s.arena.writableMapping = .ok m ∧ 0 < layout.size * count ∧ layout.size * count ≤ maxWord ∧
        roundUp s.arena.size layout.align + layout.size * count ≤ s.arena.capacity ∧
        o = .ofPosition (roundUp s.arena.size layout.align) ∧
        s' = s.reserved m.file (roundUp s.arena.size layout.align + layout.size * count) := by
  rw [allocate_apply]
  by_cases hzero : count = 0 ∨ layout.size = 0
  · have hnone : layout.size * count = 0 := by rcases hzero with h | h <;> simp [h]
    rw [if_pos hzero]
    simp [hnone]
  have hpos : 0 < layout.size * count := Nat.mul_pos (by omega) (by omega)
  rw [if_neg hzero]
  cases s.arena.writableMapping with
  | error e => simp
  | ok m =>
    dsimp only
    split
    · next hfits =>
      obtain ⟨hword, hstop⟩ := hfits
      rw [spanLength_of_le hword] at hstop ⊢
      constructor
      · intro h
        cases h
        exact ⟨m, rfl, hpos, hword, hstop, rfl, rfl⟩
      · rintro ⟨_, hm, -, -, -, rfl, rfl⟩
        cases hm
        rfl
    · next hfits =>
      constructor
      · nofun
      · rintro ⟨_, -, -, hword, hstop, -⟩
        rw [spanLength_of_le hword] at hfits
        exact absurd ⟨hword, hstop⟩ hfits

/-- The room that a call has handed out and answered the offset of. -/
structure Handed (layout : Layout) (count : Nat) (o : Offset) (s s' : State) : Prop where
  offset : o = .ofPosition (roundUp s.arena.size layout.align)
  length_pos : 0 < layout.size * count
  stop : s'.arena.size = roundUp s.arena.size layout.align + layout.size * count
  stop_le : s'.arena.size ≤ s.arena.capacity
  mapping : s'.arena.mapping = s.arena.mapping

private theorem handed_of_allocate (h : allocate layout count s = .ok o s') : Handed layout count o s s' := by
  obtain ⟨m, -, hpos, -, hstop, rfl, rfl⟩ := allocate_eq_ok.1 h
  exact ⟨rfl, hpos, rfl, hstop, rfl⟩

/-- Writing to what was handed out moves nothing. -/
private theorem handed_of_fill
    (h : (allocate layout count >>= fun o => writeRange layout o len bytes >>= fun _ => pure o) s = .ok o s') :
    Handed layout count o s s' := by
  obtain ⟨o', s₁, halloc, h⟩ := bind_eq_ok.1 h
  obtain ⟨_, hw, rfl⟩ := bind_pure_eq_ok.1 h
  have harena := arena_writeRange layout o' len bytes s₁
  rw [hw, left_ok] at harena
  have hh := handed_of_allocate halloc
  exact ⟨hh.offset, hh.length_pos, by rw [harena, hh.stop], by rw [harena]; exact hh.stop_le,
    by rw [harena]; exact hh.mapping⟩

private theorem handed_of_pushText {text : String} (h : pushText text s = .ok o s') :
    Handed .byte ((Text.encode text).length + 1) o s s' := by
  by_cases h0 : 0 ∈ Text.encode text
  · rw [pushText_of_nul h0] at h
    cases h
  · rw [pushText_eq h0] at h
    exact handed_of_fill h

/-- A call that hands out room and succeeds answers the offset of the room's start. -/
theorem Call.handed_of_ok {c : Call} (hc : c.effect = .append layout count bytes) (hrun : c.run s = .ok a s') :
    ∃ o, a = .offset o ∧ Handed layout count o s s' := by
  cases c with
  | allocate layout count =>
    cases hc
    obtain ⟨o, h, rfl⟩ := bind_pure_eq_ok.1 hrun
    exact ⟨o, rfl, handed_of_allocate h⟩
  | pushAll layout values =>
    cases hc
    obtain ⟨o, h, rfl⟩ := bind_pure_eq_ok.1 hrun
    exact ⟨o, rfl, handed_of_fill h⟩
  | push layout value =>
    cases hc
    obtain ⟨o, h, rfl⟩ := bind_pure_eq_ok.1 hrun
    exact ⟨o, rfl, handed_of_fill h⟩
  | pushText text =>
    cases hc
    obtain ⟨o, h, rfl⟩ := bind_pure_eq_ok.1 hrun
    exact ⟨o, rfl, handed_of_pushText h⟩
  | _ => cases hc

end Handout

/-! ### What keeps the mapping -/

/-- The same file is mapped, in the same mode and length, or none before and after. -/
def SameMapping (s s' : State) : Prop := s'.arena.mapping = s.arena.mapping

instance : Std.Refl SameMapping := ⟨fun _ => rfl⟩

instance : Trans SameMapping SameMapping SameMapping := ⟨fun h₁ h₂ => h₂.trans h₁⟩

private theorem sameMapping_allocate (layout : Layout) (count : Nat) : Keeps SameMapping (allocate layout count) := by
  intro s
  cases h : allocate layout count s with
  | ok o s' => exact (handed_of_allocate h).mapping
  | error e s' =>
    rw [allocate_apply] at h
    split at h
    · cases h; rfl
    cases hw : s.arena.writableMapping with
    | error e => rw [hw] at h; cases h; rfl
    | ok m =>
      rw [hw] at h
      dsimp only at h
      split at h <;> cases h
      rfl

private theorem sameMapping_writeRange (layout : Layout) (o : Offset) (len : Nat) (bytes : List UInt8) :
    Keeps SameMapping (writeRange layout o len bytes) := by
  intro s
  have harena := arena_writeRange layout o len bytes s
  exact congrArg Arena.mapping harena

private theorem sameMapping_pushText (text : String) : Keeps SameMapping (pushText text) := by
  intro s
  unfold pushText
  split
  · rfl
  · exact ((sameMapping_allocate _ _).bind fun o => (sameMapping_writeRange _ o _ _).bind fun _ => keeps_pure o) s

theorem Call.sameMapping {c : Call} (hc : c.Inside) : Keeps SameMapping c.run := by
  cases c with
  | create _ | openToRead | openToWrite | resize _ | trim | close | remove => exact hc.elim
  | flush =>
    intro s
    show (left ((Arena.flush >>= fun _ => pure Answer.done) s)).arena.mapping = _
    rw [left_bind_pure, flush_apply]
    split <;> rfl
  | allocate layout count => exact (sameMapping_allocate layout count).bind fun _ => keeps_pure _
  | pushAll layout values =>
    exact ((sameMapping_allocate layout _).bind fun o => (sameMapping_writeRange layout o _ _).bind fun _ =>
      keeps_pure o).bind fun _ => keeps_pure _
  | push layout value =>
    exact ((sameMapping_allocate layout 1).bind fun o => (sameMapping_writeRange layout o _ _).bind fun _ =>
      keeps_pure o).bind fun _ => keeps_pure _
  | pushText text => exact (sameMapping_pushText text).bind fun _ => keeps_pure _
  | write layout o value => exact (sameMapping_writeRange layout o _ _).bind fun _ => keeps_pure _
  | writeAll layout o values => exact (sameMapping_writeRange layout o _ _).bind fun _ => keeps_pure _
  | get layout o => exact (keeps_look _).bind fun _ => keeps_pure _
  | getAll layout o count => exact (keeps_look _).bind fun _ => keeps_pure _
  | getText o => exact (keeps_look _).bind fun _ => keeps_pure _
  | contents => exact (keeps_look _).bind fun _ => keeps_pure _

theorem mapping_runAll {calls : List Call} (hcalls : ∀ c ∈ calls, c.Inside) (s : State) :
    (runAll calls s).arena.mapping = s.arena.mapping := by
  induction calls generalizing s with
  | nil => rfl
  | cons c calls ih =>
    have hc : SameMapping s (left (c.run s)) := Call.sameMapping (hcalls c List.mem_cons_self) s
    have hrest := ih (fun d hd => hcalls d (List.mem_cons_of_mem c hd)) (left (c.run s))
    exact hrest.trans hc

theorem capacity_runAll {calls : List Call} (hcalls : ∀ c ∈ calls, c.Inside) (s : State) :
    (runAll calls s).arena.capacity = s.arena.capacity := by
  unfold capacity
  rw [mapping_runAll hcalls s]

/-! ### Runs from a new arena -/

theorem capacity_le_of_create {s s' : State} {n : Nat} (h : create n s = .ok () s') :
    s'.arena.capacity ≤ maxCapacity := by
  obtain ⟨m, hm, -, -⟩ := BackedBy.of_create h
  rw [hm.capacity_eq]
  exact hm.length_le

/-- Whatever has been allocated, written and read in an arena: room that is handed out begins at the first aligned
position behind what is allocated, and its offset names that position, and is not the null offset, exactly if the
position is below the largest capacity.  An arena that was created, or that is mapped from a file no longer than the
largest capacity, has no other position to hand out. -/
theorem offset_names_start_iff (s : State) (calls : List Call) (hcalls : ∀ c ∈ calls, c.Inside) (c : Call)
    {layout : Layout} {count : Nat} {bytes : List UInt8} (hc : c.effect = .append layout count bytes) {a : Answer}
    {s' : State} (hrun : c.run (runAll calls s) = .ok a s') :
    let start := roundUp (runAll calls s).arena.size layout.align
    (∃ o, a = .offset o ∧ ((o ≠ .null ∧ o.position = start) ↔ start < maxCapacity)) ∧
      (runAll calls s).arena.size ≤ start ∧ start % layout.align = 0 ∧ start < s'.arena.size ∧
      s'.arena.size = start + layout.size * count ∧ s'.arena.size ≤ s.arena.capacity ∧
      ((∃ s₀ n, create n s₀ = .ok () s) ∨ s.arena.capacity ≤ maxCapacity → start < maxCapacity) := by
  intro start
  obtain ⟨o, rfl, h⟩ := Call.handed_of_ok hc hrun
  have hcap : s'.arena.size ≤ s.arena.capacity := by
    rw [← capacity_runAll hcalls s]
    exact h.stop_le
  have hstop : s'.arena.size = start + layout.size * count := h.stop
  have hpos := h.length_pos
  refine ⟨⟨o, rfl, ?_⟩, le_roundUp _ layout.align_pos, roundUp_mod _ _, by omega, hstop, hcap, ?_⟩
  · rw [h.offset]
    exact Offset.names_iff start
  · intro hbound
    have hmax : s.arena.capacity ≤ maxCapacity := by
      rcases hbound with ⟨s₀, n, hn⟩ | hmax
      · exact capacity_le_of_create hn
      · exact hmax
    omega

/-- A file of eight bytes more than 32 bits can count, at `a`. -/
def longFile : FileSystem := (bare ⟨0⟩).addFile [Text.encode "a"] ⟨Content.empty.resize 4294967304, ⟨0⟩⟩

/-- The last byte that offsets name, in a longer file. -/
theorem offset_names_last_byte :
    ∃ s s', openToWrite ⟨longFile, closed (.ofString "a")⟩ = .ok () s ∧
      (Call.allocate .byte 1).run (runAll [.allocate .byte 4294967294] s) = .ok (.offset ⟨4294967294⟩) s' ∧
      (⟨4294967294⟩ : Offset) ≠ .null ∧ (⟨4294967294⟩ : Offset).position = 4294967294 ∧
      s'.arena.size = 4294967295 ∧ s'.arena.size ≤ s.arena.capacity := by
  have hopen : openToWrite ⟨longFile, closed (.ofString "a")⟩ = .ok () (left _) := eq_ok_of_answer (by decide +kernel)
  have hrun : (Call.allocate .byte 1).run (runAll [.allocate .byte 4294967294]
      (left (openToWrite ⟨longFile, closed (.ofString "a")⟩))) = .ok (.offset ⟨4294967294⟩) (left _) :=
    eq_ok_of_answer (by decide +kernel)
  obtain ⟨⟨o, ho, hnames⟩, -, -, -, -, hcap, -⟩ := offset_names_start_iff _ [.allocate .byte 4294967294] (by decide)
    (.allocate .byte 1) rfl hrun
  cases ho
  have hstart : roundUp (runAll [.allocate .byte 4294967294]
      (left (openToWrite ⟨longFile, closed (.ofString "a")⟩))).arena.size 1 = 4294967294 := by
    decide +kernel
  obtain ⟨hnull, hposition⟩ := hnames.2 (by rw [show Layout.byte.align = 1 from rfl, hstart]; decide)
  exact ⟨_, _, hopen, hrun, hnull, hposition.trans hstart, by decide +kernel, hcap⟩

/-- Behind the largest capacity offsets begin anew. -/
theorem offsets_wrap_in_longer_file :
    ∃ s s₁ s₂ s₃, openToWrite ⟨longFile, closed (.ofString "a")⟩ = .ok () s ∧ s.arena.capacity = 4294967304 ∧
      (Call.allocate .byte 4294967295).run s = .ok (.offset ⟨0⟩) s₁ ∧ s₁.arena.size = 4294967295 ∧
      (Call.allocate .byte 1).run s₁ = .ok (.offset .null) s₂ ∧ s₂.arena.size = 4294967296 ∧
      (Call.allocate .byte 1).run s₂ = .ok (.offset ⟨0⟩) s₃ ∧ s₃.arena.size = 4294967297 := by
  have hopen : openToWrite ⟨longFile, closed (.ofString "a")⟩ = .ok () (left _) := eq_ok_of_answer (by decide +kernel)
  refine ⟨_, _, _, _, hopen, by decide +kernel, eq_ok_of_answer (by decide +kernel), by decide +kernel,
    eq_ok_of_answer (by decide +kernel), by decide +kernel, eq_ok_of_answer (by decide +kernel), by decide +kernel⟩

end Bindery.Arena
