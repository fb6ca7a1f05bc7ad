import Bindery.Proofs.Arena.Reach

/-!
# The life of a handle

A call leaves its handle as it was, closes it, maps a file from the start, or hands out room in the mapping that
there is (`Move`, `Call.move`).  None of these lets more be allocated than is mapped (`Balanced.move`), so no sequence
of calls does, whether they fail or not and whatever becomes of the files between them (`size_le_capacity`).  A call
that fails without allocating leaves the handle as it was, or closed, so that no size outlives its mapping
(`Call.unchangedOrClosed_of_error`).
-/

namespace Bindery.Arena

open Steps FileSystem

/-! ### What a call makes of a handle -/

/-- What a call can make of a handle. -/
inductive Move (a : Arena) : Arena → Prop
  | stay : Move a a
  | shut : Move a (closed a.path)
  /-- A file is mapped for reading, and all of it is allocated. -/
  | mapToRead (file length : Nat) : Move a ⟨a.path, some ⟨.readOnly, file, length⟩, length⟩
  /-- A file is mapped for writing, and nothing is allocated. -/
  | mapToWrite (file length : Nat) : Move a ⟨a.path, some ⟨.readWrite, file, length⟩, 0⟩
  /-- Room is handed out in a mapping for writing. -/
  | reserve {stop : Nat} (hmode : a.mode = some .readWrite) (hstop : stop ≤ a.capacity) : Move a { a with size := stop }

/-- The handle is as it was, or closed. -/
def UnchangedOrClosed (s s' : State) : Prop := s'.arena = s.arena ∨ s'.arena = closed s.arena.path

theorem Move.path {a a' : Arena} (h : Move a a') : a'.path = a.path := by cases h <;> rfl

section Calls

variable {s s' : State}

theorem UnchangedOrClosed.path (h : UnchangedOrClosed s s') : s'.arena.path = s.arena.path := by
  rcases h with h | h <;> rw [h]
  rfl

theorem UnchangedOrClosed.move (h : UnchangedOrClosed s s') : Move s.arena s'.arena := by
  rcases h with h | h <;> rw [h]
  · exact .stay
  · exact .shut

/-- How a call leaves the handle that hands out no room: made into something if it succeeds, and as it was, or closed,
if it fails. -/
private inductive LeavesHandle {α : Type} (s : State) : EStateM.Result Error State α → Prop
  | done {a : α} {s' : State} (h : Move s.arena s'.arena) : LeavesHandle s (.ok a s')
  | failed {e : Error} {s' : State} (h : UnchangedOrClosed s s') : LeavesHandle s (.error e s')

private theorem LeavesHandle.of_keeps {α : Type} {x : Action α} (h : Keeps UnchangedOrClosed x) :
    LeavesHandle s (x s) := by
  cases hx : x s with
  | ok a s' => exact .done (h.ok hx).move
  | error e s' => exact .failed (h.error hx)

private theorem resize_unchangedOrClosed (capacity : Nat) : Keeps UnchangedOrClosed (resize capacity) := by
  intro s
  rw [resize_apply]
  split
  · exact .inl rfl
  · cases s.fs.openToWrite s.arena.path <;> exact .inr rfl

private theorem createFile_unchangedOrClosed (capacity : Nat) : Keeps UnchangedOrClosed (createFile capacity) := by
  intro s
  rw [createFile_apply]
  rcases s.fs.create s.arena.path with e | ⟨id, fs⟩ <;> exact .inr rfl

private theorem assertExists_unchangedOrClosed : Keeps UnchangedOrClosed assertExists := by
  intro s
  rw [assertExists_apply]
  split <;> exact .inl rfl

private theorem trim_unchangedOrClosed : Keeps UnchangedOrClosed trim := by
  intro s
  rw [trim_apply]
  split
  · exact resize_unchangedOrClosed _ s
  · exact .inl rfl

private theorem flush_unchangedOrClosed : Keeps UnchangedOrClosed flush := by
  intro s
  rw [flush_apply]
  split <;> exact .inl rfl

private theorem remove_unchangedOrClosed : Keeps UnchangedOrClosed remove := by
  intro s
  rw [remove_apply]
  rcases s.fs.remove s.arena.path with e | fs
  · cases e <;> exact .inr rfl
  · exact .inr rfl

private theorem look_unchangedOrClosed {α : Type} (f : State → Except Error α) : Keeps UnchangedOrClosed (look f) := by
  intro s
  rw [look_apply]
  cases f s <;> exact .inl rfl

theorem arena_writeRange (layout : Layout) (o : Offset) (len : Nat) (bytes : List UInt8) (s : State) :
    (left (writeRange layout o len bytes s)).arena = s.arena := by
  rw [writeRange_apply]
  cases s.arena.positionOf o len with
  | error e => rfl
  | ok pos =>
    cases s.arena.writableMapping with
    | error e => rfl
    | ok m =>
      dsimp only
      split <;> rfl

/-! ### Calls that map a file -/

/-- Mapping a file succeeds, with nothing allocated, or leaves the handle closed. -/
private theorem map_cases (mode : Mode) (s : State) :
    (∃ id, map mode s = .ok () (s.mapped mode id)) ∨ ∃ e, map mode s = .error e (s.shut s.fs) := by
  cases mode with
  | readWrite =>
    rw [map_readWrite_apply]
    cases s.fs.openToWrite s.arena.path with
    | error e => exact .inr ⟨_, rfl⟩
    | ok id => exact .inl ⟨id, rfl⟩
  | readOnly =>
    rw [map_readOnly_apply]
    rcases s.fs.openToRead s.arena.path with e | (id | t)
    · exact .inr ⟨_, rfl⟩
    · exact .inl ⟨id, rfl⟩
    · exact .inr ⟨_, rfl⟩

/-- A call that makes nothing of the handle, and then maps the file for writing. -/
private theorem leavesHandle_mapToWrite {x : Action Unit} (hx : Keeps UnchangedOrClosed x) (s : State) :
    LeavesHandle s ((x >>= fun _ => map .readWrite) s) := by
  rw [bind_apply]
  cases h : x s with
  | error e s₁ => exact .failed (hx.error h)
  | ok _ s₁ =>
    have hpath := (hx.ok h).path
    dsimp only
    rcases map_cases .readWrite s₁ with ⟨id, hm⟩ | ⟨e, hm⟩ <;> rw [hm]
    · refine .done ?_
      rw [State.mapped, hpath]
      exact .mapToWrite _ _
    · exact .failed (.inr (by rw [← hpath]; rfl))

private theorem leavesHandle_create (capacity : Nat) (s : State) : LeavesHandle s (create capacity s) := by
  rw [create_apply]
  split
  · exact .failed (.inl rfl)
  split
  · exact .failed (.inl rfl)
  split
  · exact .failed (.inl rfl)
  · refine leavesHandle_mapToWrite ?_ s
    split
    · exact resize_unchangedOrClosed capacity
    · exact createFile_unchangedOrClosed capacity

private theorem leavesHandle_openToWrite (s : State) : LeavesHandle s (openToWrite s) :=
  leavesHandle_mapToWrite assertExists_unchangedOrClosed s

private theorem leavesHandle_openToRead (s : State) : LeavesHandle s (openToRead s) := by
  unfold openToRead
  rw [bind_apply, assertExists_apply]
  by_cases hex : s.fs.pathExists s.arena.path = true
  · rw [if_pos hex]
    dsimp only
    rw [bind_apply]
    -- only once the file is mapped is all of it allocated
    rcases map_cases .readOnly s with ⟨id, hm⟩ | ⟨e, hm⟩ <;> rw [hm]
    · exact .done (.mapToRead _ _)
    · exact .failed (.inr rfl)
  · rw [if_neg hex]
    exact .failed (.inl rfl)

/-! ### Calls that allocate -/

private theorem allocate_move (layout : Layout) (count : Nat) (s : State) :
    Move s.arena (left (allocate layout count s)).arena := by
  rw [allocate_apply]
  split
  · exact .stay
  · cases hw : s.arena.writableMapping with
    | error e => exact .stay
    | ok m =>
      obtain ⟨hm, hmode⟩ := writableMapping_eq_ok.1 hw
      dsimp only
      split
      · next hfits => exact .reserve (by unfold mode; rw [hm, ← hmode]; rfl) hfits.2
      · exact .stay

private theorem fill_move (layout : Layout) (count len : Nat) (bytes : List UInt8) (s : State) :
    Move s.arena (left ((allocate layout count >>= fun o =>
      writeRange layout o len bytes >>= fun _ => pure o) s)).arena := by
  have hmove := allocate_move layout count s
  rw [bind_apply]
  cases ha : allocate layout count s with
  | error e s₁ => rw [ha] at hmove; exact hmove
  | ok o s₁ =>
    rw [ha] at hmove
    dsimp only
    rw [left_bind_pure, arena_writeRange]
    exact hmove

private theorem pushText_move (text : String) (s : State) : Move s.arena (left (pushText text s)).arena := by
  unfold pushText
  split
  · exact .stay
  · exact fill_move .byte _ _ _ s

/-! ### All calls -/

private theorem leavesHandle_writeRange (layout : Layout) (o : Offset) (len : Nat) (bytes : List UInt8) :
    LeavesHandle s (writeRange layout o len bytes s) := .of_keeps fun s => .inl (arena_writeRange layout o len bytes s)

private theorem LeavesHandle.run {α : Type} {x : Action α} {f : α → Answer} {c : Call}
    (hc : c.run = x >>= fun a => pure (f a)) (h : LeavesHandle s (x s)) : LeavesHandle s (c.run s) := by
  rw [hc, bind_apply]
  cases hx : x s with
  | ok a s' =>
    rw [hx] at h
    cases h with
    | done h => exact .done h
  | error e s' =>
    rw [hx] at h
    cases h with
    | failed h => exact .failed h

/-- Calls that hand out room. -/
def Call.Allocates : Call → Prop
  | .allocate _ _ | .pushAll _ _ | .push _ _ | .pushText _ => True
  | _ => False

private theorem leavesHandle_call {c : Call} (hc : ¬ c.Allocates) (s : State) : LeavesHandle s (c.run s) := by
  cases c with
  | create capacity => exact .run rfl (leavesHandle_create capacity s)
  | openToRead => exact .run rfl (leavesHandle_openToRead s)
  | openToWrite => exact .run rfl (leavesHandle_openToWrite s)
  | resize capacity => exact .run rfl (.of_keeps (resize_unchangedOrClosed capacity))
  | trim => exact .run rfl (.of_keeps trim_unchangedOrClosed)
  | close => exact .done .shut
  | remove => exact .run rfl (.of_keeps remove_unchangedOrClosed)
  | flush => exact .run rfl (.of_keeps flush_unchangedOrClosed)
  | get layout o => exact .run rfl (.of_keeps (look_unchangedOrClosed _))
  | getAll layout o count => exact .run rfl (.of_keeps (look_unchangedOrClosed _))
  | getText o => exact .run rfl (.of_keeps (look_unchangedOrClosed _))
  | contents => exact .run rfl (.of_keeps (look_unchangedOrClosed _))
  | write layout o value => exact .run (x := Arena.write layout o value) rfl (leavesHandle_writeRange layout o _ _)
  | writeAll layout o values =>
    exact .run (x := Arena.writeAll layout o values) rfl (leavesHandle_writeRange layout o _ _)
  | allocate _ _ | pushAll _ _ | push _ _ | pushText _ => exact absurd trivial hc

private theorem LeavesHandle.move {α : Type} {r : EStateM.Result Error State α} (h : LeavesHandle s r) :
    Move s.arena (left r).arena := by
  cases h with
  | done h => exact h
  | failed h => exact h.move

theorem Call.move (c : Call) (s : State) : Move s.arena (left (c.run s)).arena := by
  by_cases hc : c.Allocates
  · cases c with
    | allocate layout count =>
      rw [run, left_bind_pure]
      exact allocate_move layout count s
    | pushAll layout values =>
      rw [run, left_bind_pure]
      exact fill_move layout _ _ _ s
    | push layout value =>
      rw [run, left_bind_pure]
      exact fill_move layout 1 _ _ s
    | pushText text =>
      rw [run, left_bind_pure]
      exact pushText_move text s
    | _ => exact hc.elim
  · exact (leavesHandle_call hc s).move

/-- A call that fails and does not allocate leaves the handle as it was, or closed. -/
theorem Call.unchangedOrClosed_of_error {c : Call} (hc : ¬ c.Allocates) {e : Error} (h : c.run s = .error e s') :
    UnchangedOrClosed s s' := by
  have hleaves := leavesHandle_call hc s
  rw [h] at hleaves
  cases hleaves with
  | failed h => exact h

end Calls

/-- The handle stays at its path. -/
def SamePath (s s' : State) : Prop := s'.arena.path = s.arena.path

instance : Std.Refl SamePath := ⟨fun _ => rfl⟩

instance : Trans SamePath SamePath SamePath := ⟨fun h₁ h₂ => h₂.trans h₁⟩

theorem Call.samePath (c : Call) : Keeps SamePath c.run := fun s => (c.move s).path

/-! ### Size and capacity -/

/-- No more is allocated in a handle than is mapped, and what is mapped for reading is allocated as a whole. -/
structure Balanced (a : Arena) : Prop where
  closed : a.mode = none → a.size = 0
  readOnly : a.mode = some .readOnly → a.size = a.capacity
  size_le : a.size ≤ a.capacity

theorem balanced_closed (path : Path) : Balanced (closed path) where
  closed _ := rfl
  readOnly h := by cases h
  size_le := Nat.le_refl 0

theorem Balanced.move {a a' : Arena} (h : Balanced a) (hmove : Move a a') : Balanced a' := by
  cases hmove with
  | stay => exact h
  | shut => exact balanced_closed a.path
  | mapToRead file length => exact ⟨nofun, fun _ => rfl, Nat.le_refl length⟩
  | mapToWrite file length => exact ⟨nofun, nofun, Nat.zero_le length⟩
  | reserve hmode hstop =>
    refine ⟨fun hclosed => ?_, fun hread => ?_, hstop⟩
    · cases hmode.symm.trans hclosed
    · cases hmode.symm.trans hread

theorem capacity_eq_zero {a : Arena} (h : a.mode = none) : a.capacity = 0 := by
  unfold capacity
  rw [Option.map_eq_none_iff.1 h]

/-- A call on a handle, or files that have come in the place of those there were, by whatever is done elsewhere. -/
inductive Event where
  | call (c : Call)
  | elsewhere (fs : FileSystem)

/-- The state after an event. -/
def Event.leave (s : State) : Event → State
  | call c => left (c.run s)
  | elsewhere fs => { s with fs }

theorem Balanced.leave {s : State} (h : Balanced s.arena) (e : Event) : Balanced (e.leave s).arena := by
  cases e with
  | call c => exact h.move (c.move s)
  | elsewhere fs => exact h

theorem Balanced.run {s : State} (h : Balanced s.arena) (events : List Event) :
    Balanced (events.foldl Event.leave s).arena := by
  induction events generalizing s with
  | nil => exact h
  | cons e events ih => exact ih (h.leave e)

/-- Whatever is done with a new handle, and whatever becomes of the files: nothing is allocated and nothing mapped
while it is closed, everything is allocated while it is mapped for reading, and there is room for the rest of the
capacity while it is mapped for writing.  A call that fails to open, make or resize the file leaves the mapping and the
size that there were, or neither. -/
theorem size_le_capacity (path : Path) (fs : FileSystem) (events : List Event) :
    let s := events.foldl Event.leave ⟨fs, .closed path⟩
    (s.arena.mode = none → s.arena.size = 0 ∧ s.arena.capacity = 0) ∧
      (s.arena.mode = some .readOnly → s.arena.size = s.arena.capacity) ∧
      (s.arena.mode = some .readWrite → s.arena.size ≤ s.arena.capacity) ∧
      s.arena.available + s.arena.size = s.arena.capacity ∧
      ∀ c : Call, ¬ c.Allocates → ∀ e s', c.run s = .error e s' →
        s'.arena = s.arena ∨ s'.arena = .closed s.arena.path := by
  intro s
  have h : Balanced s.arena := (balanced_closed path).run (s := ⟨fs, .closed path⟩) events
  refine ⟨fun hclosed => ⟨h.closed hclosed, capacity_eq_zero hclosed⟩, h.readOnly, fun _ => h.size_le, ?_, ?_⟩
  · exact Nat.sub_add_cancel h.size_le
  · exact fun c hc e s' hrun => c.unchangedOrClosed_of_error hc hrun

/-- A file that was mapped with eight bytes allocated has gone when it is to be resized. -/
example : (([.call (.create 16), .call (.push .word64 [1, 2, 3, 4, 5, 6, 7, 8]), .elsewhere (bare ⟨1⟩),
    .call (.resize 4)] : List Event).foldl Event.leave ⟨bare ⟨0⟩, closed (.ofString "a")⟩).arena =
      closed (.ofString "a") := by
  decide +kernel

end Bindery.Arena
