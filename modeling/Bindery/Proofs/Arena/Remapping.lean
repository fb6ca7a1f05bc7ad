import Bindery.Proofs.Arena.Effects
import Bindery.Proofs.FileSystem.SameFile

/-!
# Arenas that are mapped again

What is allocated in an arena is in its file, in front, and stays there when the mapping is dropped in any way that
leaves the file long enough (`Saved`, `Saved.step`).  A file that is mapped for reading is allocated as a whole, so
that all that could be read before can be read again, at the same offsets (`Saved.within`,
`contents_survive_remapping`).
-/

namespace Bindery.Arena

open Steps FileSystem

variable {s s' t : State} {m : Mapping} {region : List UInt8}

/-! ### Letting go of the mapping -/

/-- A call that lets go of a mapping, or that cuts or extends the file to a length that a region of a size fits
into. -/
def Call.KeepsRoom (size : Nat) : Call → Prop
  | .flush | .close | .trim => True
  | .resize capacity => size ≤ capacity ∧ capacity ≤ maxCapacity
  | _ => False

instance (size : Nat) : (c : Call) → Decidable (c.KeepsRoom size)
  | .flush | .close | .trim => .isTrue trivial
  | .resize capacity => inferInstanceAs (Decidable (size ≤ capacity ∧ capacity ≤ maxCapacity))
  | .create _ | .openToRead | .openToWrite | .remove | .allocate _ _ | .pushAll _ _ | .push _ _ | .pushText _
  | .write _ _ _ | .writeAll _ _ _ | .get _ _ | .getAll _ _ _ | .getText _ | .contents => .isFalse id

/-- A file begins with the bytes of a region. -/
def BeginsWith (fs : FileSystem) (id : Nat) (region : List UInt8) : Prop :=
  region.length ≤ (fs.file id).content.size ∧ (fs.file id).content.slice 0 region.length = region

/-- The file at an arena's path begins with the bytes of a region, and if it is still mapped, the region is what is
allocated. -/
structure Saved (region : List UInt8) (s : State) : Prop where
  file : ∃ id, s.fs.openToWrite s.arena.path = .ok id ∧ BeginsWith s.fs id region
  size : s.arena.isOpen = true → s.arena.size = region.length

theorem Saved.of_backed (h : BackedBy m s) : Saved s.allocated s where
  file := by
    refine ⟨m.file, h.opens, ?_, ?_⟩
    · rw [h.length_allocated, h.length]
      exact h.size_le
    · rw [h.length_allocated, State.allocated_eq h.mapping]
  size _ := h.length_allocated.symm

theorem BeginsWith.setLength {fs : FileSystem} {id n : Nat} (h : BeginsWith fs id region)
    (hid : id < fs.files.length) (hn : region.length ≤ n) : BeginsWith (fs.setLength id n) id region := by
  unfold BeginsWith FileSystem.setLength
  rw [file_modifyFile _ _ _ _ hid, if_pos rfl]
  refine ⟨hn, ?_⟩
  dsimp only
  rw [Content.slice_resize_of_le _ (by omega)]
  exact h.2

private theorem Saved.resize (h : Saved region s) {capacity : Nat} (hc : region.length ≤ capacity) :
    Saved region (left (resize capacity s)) ∧ (left (Arena.resize capacity s)).arena.path = s.arena.path := by
  rw [resize_apply]
  split
  · exact ⟨h, rfl⟩
  · obtain ⟨id, hid, hb⟩ := h.file
    rw [hid]
    refine ⟨⟨⟨id, openToWrite_modifyFile hid _ _, hb.setLength (known_of_openToWrite hid) hc⟩, ?_⟩, rfl⟩
    intro hopen
    cases hopen

/-- A region that is saved stays so. -/
theorem Saved.step (h : Saved region s) {c : Call} (hc : c.KeepsRoom region.length) :
    Saved region (left (c.run s)) ∧ (left (c.run s)).arena.path = s.arena.path := by
  cases c with
  | flush =>
    have hrun : Call.flush.run = Arena.flush >>= fun _ => pure .done := rfl
    rw [hrun, left_bind_pure, flush_apply]
    split <;> exact ⟨h, rfl⟩
  | close => exact ⟨⟨h.file, fun hopen => by cases hopen⟩, rfl⟩
  | resize capacity =>
    have hrun : (Call.resize capacity).run = Arena.resize capacity >>= fun _ => pure .done := rfl
    rw [hrun, left_bind_pure]
    exact h.resize hc.1
  | trim =>
    have hrun : Call.trim.run = Arena.trim >>= fun _ => pure .done := rfl
    rw [hrun, left_bind_pure, trim_apply]
    split
    · next hopen => exact h.resize (Nat.le_of_eq (h.size hopen).symm)
    · exact ⟨h, rfl⟩
  | create _ | openToRead | openToWrite | remove | allocate _ _ | pushAll _ _ | push _ _ | pushText _
  | write _ _ _ | writeAll _ _ _ | get _ _ | getAll _ _ _ | getText _ | contents => exact hc.elim

theorem Saved.runAll (h : Saved region s) {calls : List Call} (hc : ∀ c ∈ calls, c.KeepsRoom region.length) :
    Saved region (runAll calls s) ∧ (Arena.runAll calls s).arena.path = s.arena.path := by
  induction calls generalizing s with
  | nil => exact ⟨h, rfl⟩
  | cons c calls ih =>
    obtain ⟨h₁, hp₁⟩ := h.step (hc c List.mem_cons_self)
    obtain ⟨h₂, hp₂⟩ := ih h₁ fun c hcs => hc c (List.mem_cons_of_mem _ hcs)
    exact ⟨h₂, hp₂.trans hp₁⟩

/-! ### Mapping the file again -/

/-- Whoever maps a file for reading sees all that it holds. -/
theorem openToRead_of_read {bytes : List UInt8} (h : t.fs.read t.arena.path = .ok bytes) :
    ∃ t', openToRead t = .ok () t' ∧ t'.arena.isOpen = true ∧ t'.allocated = bytes := by
  obtain ⟨r, id, hid, rfl⟩ := read_eq_ok.1 h
  exact ⟨_, openToRead_of_file t (openToRead_eq_ok.2 ⟨r, hid⟩), rfl, rfl⟩

theorem Saved.read (h : Saved region s) : ∃ bytes, s.fs.read s.arena.path = .ok bytes ∧ region <+: bytes := by
  obtain ⟨id, hid, hle, hslice⟩ := h.file
  obtain ⟨r, hr⟩ := openToWrite_eq_ok.1 hid
  refine ⟨_, read_eq_ok.2 ⟨r, id, hr, rfl⟩, ?_⟩
  obtain ⟨k, hk⟩ := Nat.exists_eq_add_of_le hle
  rw [Content.toList, hk, Content.slice_add, hslice]
  exact List.prefix_append _ _

/-- Cutting a file down to what is allocated leaves nothing else in it, if the file at the path is still the one that is
mapped. -/
theorem trim_of_opens (hm : s.arena.mapping = some m) (hid : s.fs.openToWrite s.arena.path = .ok m.file)
    (hmax : s.arena.size ≤ maxCapacity) :
    ∃ s', trim s = .ok () s' ∧ s'.arena.path = s.arena.path ∧ s'.fs.read s.arena.path = .ok s.allocated := by
  rw [trim_apply, if_pos (isOpen_eq_true.2 ⟨m, hm⟩), resize_apply, if_neg (Nat.not_lt.2 hmax), hid]
  refine ⟨_, rfl, rfl, ?_⟩
  obtain ⟨r, hr⟩ := openToWrite_eq_ok.1 (openToWrite_modifyFile hid m.file
    fun f => ⟨f.content.resize s.arena.size, s.fs.now⟩)
  refine read_eq_ok.2 ⟨r, m.file, hr, ?_⟩
  unfold State.shut FileSystem.setLength
  rw [file_modifyFile _ _ _ _ (known_of_openToWrite hid), if_pos rfl, State.allocated_eq hm]
  exact Content.slice_resize_of_le _ (Nat.le_of_eq (Nat.zero_add _))

theorem BackedBy.trim (h : BackedBy m s) :
    ∃ s', Arena.trim s = .ok () s' ∧ s'.arena.path = s.arena.path ∧ s'.fs.read s.arena.path = .ok s.allocated :=
  trim_of_opens h.mapping h.opens (Nat.le_trans h.size_le h.length_le)

/-! ### Contents and mappings -/

/-- Everything that can be read from an arena after a run of calls can be read again when its file has been let go of
and is mapped for reading, by whomever, and cutting the file down leaves what was allocated and no more. -/
theorem contents_survive_remapping {s₀ s : State}
    (hs : (∃ n, create n s₀ = .ok () s) ∨ (openToWrite s₀ = .ok () s ∧ s.arena.capacity ≤ maxCapacity))
    (calls : List Call) (hc : ∀ c ∈ calls, c.Inside) :
    let before := runAll calls s
    (∀ closing : List Call, (∀ c ∈ closing, c.KeepsRoom before.arena.size) →
      ∀ t : State, t.arena.path = s.arena.path →
        t.fs.read t.arena.path = (runAll closing before).fs.read t.arena.path →
          ∃ t', openToRead t = .ok () t' ∧
            (∀ layout o bytes, before.get layout o = .ok bytes → t'.get layout o = .ok bytes) ∧
            (∀ layout o count bytes,
              before.getAll layout o count = .ok bytes → t'.getAll layout o count = .ok bytes) ∧
            ∀ o text, before.getText o = .ok text → t'.getText o = .ok text) ∧
      ∃ bytes trimmed, before.contents = .ok bytes ∧ trim before = .ok () trimmed ∧
        trimmed.fs.read s.arena.path = .ok bytes := by
  obtain ⟨m, hm⟩ : ∃ m, BackedBy m s := by
    rcases hs with ⟨n, hn⟩ | ⟨ho, hcap⟩
    · obtain ⟨m, hm, -⟩ := BackedBy.of_create hn
      exact ⟨m, hm⟩
    · obtain ⟨m, hm, -⟩ := BackedBy.of_openToWrite ho hcap
      exact ⟨m, hm⟩
  intro before
  obtain ⟨hbefore, hpath⟩ : BackedBy m before ∧ before.arena.path = s.arena.path := hm.runAll hc
  refine ⟨fun closing hclosing t ht hread => ?_, ?_⟩
  · obtain ⟨hsaved, hpath'⟩ := (Saved.of_backed hbefore).runAll (by rwa [hbefore.length_allocated])
    obtain ⟨bytes, hbytes, hprefix⟩ := hsaved.read
    rw [hpath', hpath, ← ht] at hbytes
    obtain ⟨t', ho, hopen, hall⟩ := openToRead_of_read (hread.trans hbytes)
    have hwithin : before.Within t' := ⟨hopen, hall ▸ hprefix⟩
    exact ⟨t', ho, fun _ _ _ h => hwithin.readRange h, fun _ _ _ _ h => hwithin.readRange h,
      fun _ _ h => hwithin.getText h⟩
  · obtain ⟨trimmed, htrim, -, hread⟩ := hbefore.trim
    exact ⟨_, trimmed, State.contents_eq_ok.2 ⟨hbefore.isOpen, rfl⟩, htrim, hpath ▸ hread⟩

/-- A text and two words of which the second is written, in a file that is cut to 20 bytes, mapped again by a second
handle. -/
theorem contents_survive_remapping_to_twenty_bytes :
    ∃ s before t', create 32 ⟨.bare ⟨0⟩, .closed (.ofString "a")⟩ = .ok () s ∧
      before = runAll [.pushText "ab", .allocate .word32 2, .write .word32 ⟨8⟩ [1, 2, 3, 4]] s ∧
      openToRead ⟨(runAll [.flush, .resize 20, .close] before).fs, .closed (.ofString "a")⟩ = .ok () t' ∧
      t'.getText ⟨0⟩ = .ok "ab" ∧ t'.get .word32 ⟨8⟩ = .ok [1, 2, 3, 4] ∧
      ∃ trimmed, trim before = .ok () trimmed ∧
        trimmed.fs.read (.ofString "a") = .ok [97, 98, 0, 0, 0, 0, 0, 0, 1, 2, 3, 4] := by
  have hs : create 32 ⟨.bare ⟨0⟩, .closed (.ofString "a")⟩ = .ok () (left _) := eq_ok_of_answer (by decide +kernel)
  obtain ⟨hreads, bytes, trimmed, hbytes, htrim, hread⟩ := contents_survive_remapping (.inl ⟨32, hs⟩)
    [.pushText "ab", .allocate .word32 2, .write .word32 ⟨8⟩ [1, 2, 3, 4]] (by decide)
  obtain ⟨t', ho, hget, -, htext⟩ := hreads [.flush, .resize 20, .close] (by decide +kernel)
    ⟨_, .closed (.ofString "a")⟩ rfl rfl
  refine ⟨_, _, t', hs, rfl, ho, htext _ _ (by decide +kernel), hget _ _ _ (by decide +kernel), trimmed, htrim, ?_⟩
  rw [State.contents_eq_ok] at hbytes
  rw [hbytes.2] at hread
  exact hread.trans (by decide +kernel)

end Bindery.Arena
