import Bindery.Proofs.Arena.Storing
import Mathlib.Control.Monad.Basic

/-!
# Arenas hold separate values

Calls that allocate, and writes within what was allocated, keep a ledger (`Ledger.record`): an allocation adds a
block, a write changes the one block it falls into.  One call on an arena that holds a ledger leaves an arena that
holds the ledger after the call, whether the call fails or not (`Ledger.Represents.step`), so a run of any length
does (`Ledger.Represents.run`), and an arena that has just been created or opened holds the empty one.  So blocks
never overlap, and each reads back what was last written to it (`allocations_are_separate`).
-/

namespace Bindery.Arena

open Steps FileSystem

/-! ### Calls and the ledger -/

/-- The ledger after a call, which goes by what the call answered. -/
def Ledger.record (l : Ledger) : Call → Except Error Answer → Ledger
  | .allocate layout count, .ok (.offset o) => l ++ [⟨layout, count, o, List.replicate (layout.size * count) 0⟩]
  | .pushAll layout values, .ok (.offset o) => l ++ [⟨layout, values.length, o, values.flatten⟩]
  | .push layout value, .ok (.offset o) => l ++ [⟨layout, 1, o, value⟩]
  | .pushText text, .ok (.offset o) =>
    l ++ [⟨.byte, (Text.encode text).length + 1, o, Text.encode text ++ [0]⟩]
  | .write _ o value, .ok .done => l.map (·.overwrite o value)
  | .writeAll _ o values, .ok .done => l.map (·.overwrite o values.flatten)
  | _, _ => l

/-- A call that allocates or reads, or writes within a block of a ledger.  A value has as many bytes as its layout
says. -/
def Call.AllowedBy (l : Ledger) : Call → Prop
  | .allocate _ _ | .pushText _ | .flush | .get _ _ | .getAll _ _ _ | .getText _ | .contents => True
  | .pushAll layout values => ∀ v ∈ values, v.length = layout.size
  | .push layout value => value.length = layout.size
  | .write layout o value => value.length = layout.size ∧ ∃ b ∈ l, b.Covers o layout.size
  | .writeAll layout o values =>
    (∀ v ∈ values, v.length = layout.size) ∧ ∃ b ∈ l, b.Covers o (layout.size * values.length)
  | .create _ | .openToRead | .openToWrite | .resize _ | .trim | .close | .remove => False

instance (l : Ledger) : (c : Call) → Decidable (c.AllowedBy l)
  | .allocate _ _ | .pushText _ | .flush | .get _ _ | .getAll _ _ _ | .getText _ | .contents => .isTrue trivial
  | .pushAll layout values => inferInstanceAs (Decidable (∀ v ∈ values, v.length = layout.size))
  | .push layout value => inferInstanceAs (Decidable (value.length = layout.size))
  | .write layout o value =>
    inferInstanceAs (Decidable (value.length = layout.size ∧ ∃ b ∈ l, b.Covers o layout.size))
  | .writeAll layout o values =>
    inferInstanceAs (Decidable ((∀ v ∈ values, v.length = layout.size) ∧
      ∃ b ∈ l, b.Covers o (layout.size * values.length)))
  | .create _ | .openToRead | .openToWrite | .resize _ | .trim | .close | .remove => .isFalse id

/-- The ledger and the arena after calls. -/
def Ledger.run (l : Ledger) : List Call → State → Ledger × State
  | [], s => (l, s)
  | c :: cs, s => (l.record c (answer (c.run s))).run cs (left (c.run s))

/-- Each of several calls is allowed by the ledger of those before it. -/
def Ledger.Allows (l : Ledger) : List Call → State → Prop
  | [], _ => True
  | c :: cs, s => c.AllowedBy l ∧ (l.record c (answer (c.run s))).Allows cs (left (c.run s))

instance decidableAllows (l : Ledger) : (calls : List Call) → (s : State) → Decidable (l.Allows calls s)
  | [], _ => .isTrue trivial
  | c :: cs, s =>
    have := decidableAllows (l.record c (answer (c.run s))) cs (left (c.run s))
    inferInstanceAs (Decidable (c.AllowedBy l ∧ _))

namespace Ledger.Represents

variable {l : Ledger} {m : Mapping} {s : State}

/-! ### Calls -/

private theorem run_eq_ok {α : Type} {x : Action α} {f : α → Answer} {c : Call} {s' : State} {a : α}
    (hc : c.run = x >>= fun a => pure (f a)) (hx : x s = .ok a s') : c.run s = .ok (f a) s' := by
  rw [hc, bind_apply, hx]
  rfl

private theorem run_eq_error {α : Type} {x : Action α} {f : α → Answer} {c : Call} {s' : State} {e : Error}
    (hc : c.run = x >>= fun a => pure (f a)) (hx : x s = .error e s') : c.run s = .error e s' := by
  rw [hc, bind_apply, hx]

private theorem left_run_of_look {α : Type} {x : State → Except Error α} {f : α → Answer} {c : Call} (s : State)
    (hc : c.run = look x >>= fun a => pure (f a)) : left (c.run s) = s := by
  rw [hc, bind_apply, look_apply]
  cases x s <;> rfl

theorem step (h : l.Represents m s) {c : Call} (ha : c.AllowedBy l) :
    (l.record c (answer (c.run s))).Represents m (left (c.run s)) := by
  cases c with
  | create _ | openToRead | openToWrite | resize _ | trim | close | remove => exact ha.elim
  | flush =>
    have hf : Arena.flush s = .ok () s := by rw [flush_apply, if_pos h.isOpen]
    rw [run_eq_ok (c := .flush) rfl hf]
    exact h
  | get layout o => rw [left_run_of_look s rfl]; exact h
  | getAll layout o count => rw [left_run_of_look s rfl]; exact h
  | getText o => rw [left_run_of_look s rfl]; exact h
  | contents => rw [left_run_of_look s rfl]; exact h
  | allocate layout count =>
    rcases h.allocate layout count with ⟨o, s', ho, -, -, h'⟩ | ⟨e, he⟩
    · rw [run_eq_ok rfl ho]; exact h'
    · rw [run_eq_error rfl he]; exact h
  | pushAll layout values =>
    rcases h.pushAll ha with ⟨o, s', ho, -, -, h'⟩ | ⟨e, he⟩
    · rw [run_eq_ok (c := .pushAll layout values) rfl ho]; exact h'
    · rw [run_eq_error (c := .pushAll layout values) rfl he]; exact h
  | push layout value =>
    rcases h.push ha with ⟨o, s', ho, -, -, h'⟩ | ⟨e, he⟩
    · rw [run_eq_ok (c := .push layout value) rfl ho]; exact h'
    · rw [run_eq_error (c := .push layout value) rfl he]; exact h
  | pushText text =>
    rcases h.pushText text with ⟨o, s', ho, h'⟩ | ⟨e, he⟩
    · rw [run_eq_ok (c := .pushText text) rfl ho]; exact h'
    · rw [run_eq_error (c := .pushText text) rfl he]; exact h
  | write layout o value =>
    obtain ⟨hlen, hb⟩ := ha
    rcases h.writeRange layout hb hlen with ⟨s', hs, -, h'⟩ | ⟨e, he⟩
    · rw [run_eq_ok (x := Arena.write layout o value) rfl hs]; exact h'
    · rw [run_eq_error (x := Arena.write layout o value) rfl he]; exact h
  | writeAll layout o values =>
    obtain ⟨hlen, b, hb, hc⟩ := ha
    -- what lies within a block is far from the end of 64 bits
    have hspan : spanLength layout values.length = layout.size * values.length := by
      have hstop := (h.fits b hb).stop_le
      have hsize := h.size_le
      have := hc.2
      exact spanLength_of_le (Nat.le_trans (by omega) (show maxCapacity ≤ maxWord by decide))
    have hflat : values.flatten.length = spanLength layout values.length := by
      rw [hspan, length_flatten_of_forall hlen]
    rcases h.writeRange layout ⟨b, hb, hspan.symm ▸ hc⟩ hflat with ⟨s', hs, -, h'⟩ | ⟨e, he⟩
    · rw [run_eq_ok (x := Arena.writeAll layout o values) rfl hs]; exact h'
    · rw [run_eq_error (x := Arena.writeAll layout o values) rfl he]; exact h

theorem run (h : l.Represents m s) {calls : List Call} (ha : l.Allows calls s) :
    (l.run calls s).1.Represents m (l.run calls s).2 := by
  induction calls generalizing l s with
  | nil => exact h
  | cons c calls ih => exact ih (h.step ha.1) ha.2

end Ledger.Represents

/-! ### New arenas -/

section New

variable {s s' : State}

private theorem represents_mapped {id : Nat} (hid : s.fs.openToWrite s.arena.path = .ok id)
    (hcap : (s.fs.file id).content.size ≤ maxCapacity) :
    Ledger.Represents [] ⟨.readWrite, id, (s.fs.file id).content.size⟩ (s.mapped .readWrite id) := by
  obtain ⟨r, hr⟩ := openToWrite_eq_ok.1 hid
  obtain ⟨spot, -, rfl, -, hn⟩ := stat_eq_ok.1 hr
  exact ⟨⟨rfl, Nat.zero_le _, nofun, .nil, nofun⟩, rfl, rfl, s.fs.known _ _ hn, Nat.zero_le _, hcap⟩

theorem map_eq_ok (h : map .readWrite s = .ok () s') :
    ∃ id, s.fs.openToWrite s.arena.path = .ok id ∧ s' = s.mapped .readWrite id := by
  rw [map_readWrite_apply] at h
  cases hid : s.fs.openToWrite s.arena.path with
  | error e => rw [hid] at h; cases h
  | ok id => rw [hid] at h; cases h; exact ⟨id, rfl, rfl⟩

/-- An arena opened for writing holds nothing, whatever the file holds. -/
theorem represents_of_openToWrite (h : openToWrite s = .ok () s') (hcap : s'.arena.capacity ≤ maxCapacity) :
    ∃ m, Ledger.Represents [] m s' := by
  unfold openToWrite at h
  obtain ⟨_, s₁, -, h⟩ := bind_eq_ok.1 h
  obtain ⟨id, hid, rfl⟩ := map_eq_ok h
  exact ⟨_, represents_mapped hid hcap⟩

private theorem size_of_setLength {fs : FileSystem} {p : Path} {r : Route} {id id' n : Nat}
    (hn : fs.node? r = some (.file id)) (hr : ∀ t, fs.route? p = some t → t = r)
    (h : (fs.setLength id n).openToWrite p = .ok id') : ((fs.setLength id n).file id').content.size = n := by
  have hc : ChangesOnly r fs (fs.setLength id n) := .modifyFile hn _
  obtain ⟨t, ht⟩ := openToWrite_eq_ok.1 h
  obtain ⟨spot, hl, rfl, -, hn'⟩ := stat_eq_ok.1 ht
  have hroute : fs.route? p = some spot.route := hc.route?_eq ▸ route?_eq_some.2 ⟨spot, hl, rfl⟩
  obtain rfl := hr _ hroute
  obtain rfl : id = id' := by simpa using hn.symm.trans hn'
  unfold setLength
  rw [file_modifyFile _ _ _ _ (fs.known _ _ hn), if_pos rfl]
  rfl

/-- An arena that was created holds nothing and has the capacity asked for. -/
theorem represents_of_create {n : Nat} (h : create n s = .ok () s') :
    ∃ m, m.length = n ∧ s'.arena.size = 0 ∧ Ledger.Represents [] m s' := by
  rw [create_apply] at h
  split at h
  · cases h
  split at h
  · cases h
  next hmax =>
  split at h
  · cases h
  obtain ⟨_, s₁, hmade, hmap⟩ := bind_eq_ok.1 h
  obtain ⟨id', hid', rfl⟩ := map_eq_ok hmap
  -- a file that was there has been resized, else a new one has been made
  have hsize : (s₁.fs.file id').content.size = n := by
    split at hmade
    · rw [resize_apply, if_neg hmax] at hmade
      cases hid : s.fs.openToWrite s.arena.path with
      | error e => rw [hid] at hmade; cases hmade
      | ok id =>
        rw [hid] at hmade
        cases hmade
        obtain ⟨r, hr⟩ := openToWrite_eq_ok.1 hid
        obtain ⟨spot, hl, rfl, -, hn⟩ := stat_eq_ok.1 hr
        refine size_of_setLength hn (fun t ht => ?_) hid'
        exact Option.some.inj (ht.symm.trans (route?_eq_some.2 ⟨spot, hl, rfl⟩))
    · rw [createFile_apply] at hmade
      cases hc : s.fs.create s.arena.path with
      | error e => rw [hc] at hmade; cases hmade
      | ok made =>
        obtain ⟨id, fs⟩ := made
        rw [hc] at hmade
        cases hmade
        obtain ⟨dir, name, hl, -⟩ := create_eq_ok hc
        have hr : ∀ t, s.fs.route? s.arena.path = some t → t = dir ++ [name] := fun t ht =>
          Option.some.inj (ht.symm.trans (route?_eq_some.2 ⟨_, hl, rfl⟩))
        obtain ⟨hch, hn⟩ := ChangesOnly.of_create hc hr
        exact size_of_setLength hn (fun t ht => hr t (hch.route?_eq ▸ ht)) hid'
  exact ⟨_, hsize, rfl, represents_mapped hid' (by omega)⟩

end New

/-! ### Runs from a new arena -/

/-- Whatever is allocated and written in an arena that was created or opened for writing, the allocations lie
apart, and each reads back what was last written to it. -/
theorem allocations_are_separate {s₀ s : State}
    (hs : (∃ n, create n s₀ = .ok () s) ∨ (openToWrite s₀ = .ok () s ∧ s.arena.capacity ≤ maxCapacity))
    (calls : List Call) (ha : Ledger.Allows [] calls s) :
    let l := (Ledger.run [] calls s).1
    let s' := (Ledger.run [] calls s).2
    (l.Pairwise fun a b => a.start < b.start ∧ a.stop ≤ b.start) ∧
      ∀ b ∈ l, b.offset ≠ .null ∧ b.start % b.layout.align = 0 ∧ b.start < b.stop ∧ b.stop ≤ s.arena.capacity ∧
        b.ReadsBack s' := by
  obtain ⟨m, hm⟩ : ∃ m, Ledger.Represents [] m s := by
    rcases hs with ⟨n, hn⟩ | ⟨ho, hcap⟩
    · obtain ⟨m, -, -, hm⟩ := represents_of_create hn
      exact ⟨m, hm⟩
    · exact represents_of_openToWrite ho hcap
  intro l s'
  have h : l.Represents m s' := hm.run ha
  have hlt (b) (hb : b ∈ l) : b.start < b.stop := Nat.lt_add_of_pos_right (h.fits b hb).length_pos
  refine ⟨?_, fun b hb => ⟨?_, (h.fits b hb).aligned, hlt b hb, ?_, h.readsBack hb⟩⟩
  · refine h.apart.imp_of_mem fun ha _ hab => ⟨?_, hab⟩
    exact Nat.lt_of_lt_of_le (hlt _ ha) hab
  · exact Offset.ne_null (h.offset_lt hb)
  · rw [hm.capacity_eq]
    exact Nat.le_trans (h.fits b hb).stop_le h.size_le_length

/-- A text, two words of which the second is written, and a byte. -/
theorem allocations_are_separate_in_small_arena :
    ∃ s, create 32 ⟨.bare ⟨0⟩, .closed (.ofString "a")⟩ = .ok () s ∧
      ∃ l s', Ledger.run []
          [.pushText "ab", .allocate .word32 2, .write .word32 ⟨8⟩ [1, 2, 3, 4], .push .byte [7]] s = (l, s') ∧
        l = [⟨.byte, 3, ⟨0⟩, [97, 98, 0]⟩, ⟨.word32, 2, ⟨4⟩, [0, 0, 0, 0, 1, 2, 3, 4]⟩, ⟨.byte, 1, ⟨12⟩, [7]⟩] ∧
        ∀ b ∈ l, b.offset ≠ .null ∧ b.stop ≤ s.arena.capacity ∧ b.ReadsBack s' := by
  have hs : create 32 ⟨.bare ⟨0⟩, .closed (.ofString "a")⟩ = .ok () (left _) := eq_ok_of_answer (by decide +kernel)
  have ha : Ledger.Allows [] [.pushText "ab", .allocate .word32 2, .write .word32 ⟨8⟩ [1, 2, 3, 4], .push .byte [7]]
      (left (create 32 ⟨.bare ⟨0⟩, .closed (.ofString "a")⟩)) := by
    decide +kernel
  have h := allocations_are_separate (.inl ⟨32, hs⟩) _ ha
  refine ⟨_, hs, _, _, rfl, by decide +kernel, fun b hb => ?_⟩
  obtain ⟨hnull, -, -, hstop, hreads⟩ := h.2 b hb
  exact ⟨hnull, hstop, hreads⟩

end Bindery.Arena
