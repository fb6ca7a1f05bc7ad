import Bindery.Proofs.Arena.Positions

/-!
# Calls that are rejected

A call can fail because of a file, or because of the call itself: its arguments, what the handle is mapped for, or the
space that is left (`Error.isRejection`).  Everything that can be rejected is checked before anything is changed, with
one exception: a call that puts values first hands out room and then writes to it.  But in an arena that is no longer
than offsets reach the room is where its offset says, and a write to it cannot fail (`writeRange_of_allocate`).  So a
call that is rejected leaves no trace (`Call.traceless`), and a run of calls leaves what it leaves without those that
are rejected (`runAll_accepted`).
-/

namespace Bindery.Arena

open Steps FileSystem

/-- Whether an error says what is wrong with a call, and not with a file. -/
def Error.isRejection : Error → Bool
  | exhausted .. | invalidArgument _ | notOpen | readOnly | invalidOffset .. | invalidString _ => true
  | notFound _ | file .. | map .. => false

/-- How a call ends that leaves no trace when it is rejected. -/
inductive Traceless {α : Type} (s : State) : EStateM.Result Error State α → Prop
  | done {a : α} {s' : State} : Traceless s (.ok a s')
  | rejected {e : Error} : Traceless s (.error e s)
  | failed {e : Error} {s' : State} (he : e.isRejection = false) : Traceless s (.error e s')

section Traceless

variable {α β : Type} {s s₁ : State} {layout : Layout} {count len : Nat} {o : Offset} {bytes : List UInt8}

theorem Traceless.state_eq {r : EStateM.Result Error State α} {e : Error} (h : Traceless s r) (hr : r = .error e s₁)
    (he : e.isRejection = true) : s₁ = s := by
  cases h with
  | done => cases hr
  | rejected => cases hr; rfl
  | failed hfile =>
    cases hr
    rw [he] at hfile
    cases hfile

private theorem Traceless.answering {x : Action α} {f : α → β} (h : Traceless s (x s)) :
    Traceless s ((x >>= fun a => pure (f a)) s) := by
  rw [bind_apply]
  cases hx : x s with
  | ok a s' => exact .done
  | error e s' =>
    rw [hx] at h
    cases h with
    | rejected => exact .rejected
    | failed he => exact .failed he

/-! ### Calls that fail because of a file alone -/

private theorem isRejection_ofOpening (path : Path) (fault : Fault) :
    (Error.ofOpening path fault).isRejection = false := by
  cases fault <;> rfl

/-- An action that is never rejected. -/
private def NeverRejected (x : Action α) : Prop := ∀ s e s', x s = .error e s' → e.isRejection = false

private theorem NeverRejected.bind {x : Action α} {f : α → Action β} (hx : NeverRejected x)
    (hf : ∀ a, NeverRejected (f a)) : NeverRejected (x >>= f) := by
  intro s e s' h
  rw [bind_apply] at h
  cases hs : x s with
  | ok a t =>
    rw [hs] at h
    exact hf a t e s' h
  | error e' t =>
    rw [hs] at h
    cases h
    exact hx s e s' hs

private theorem NeverRejected.traceless {x : Action α} (hx : NeverRejected x) (s : State) : Traceless s (x s) := by
  cases hs : x s with
  | ok a s' => exact .done
  | error e s' => exact .failed (hx s e s' hs)

private theorem map_neverRejected (mode : Mode) : NeverRejected (map mode) := by
  intro s e s' h
  cases mode with
  | readWrite =>
    rw [map_readWrite_apply] at h
    cases hid : s.fs.openToWrite s.arena.path with
    | ok id => rw [hid] at h; cases h
    | error fault => rw [hid] at h; cases h; exact isRejection_ofOpening _ _
  | readOnly =>
    rw [map_readOnly_apply] at h
    rcases hn : s.fs.openToRead s.arena.path with fault | (id | t) <;> rw [hn] at h <;> cases h
    · exact isRejection_ofOpening _ _
    · rfl

private theorem createFile_neverRejected (capacity : Nat) : NeverRejected (createFile capacity) := by
  intro s e s' h
  rw [createFile_apply] at h
  rcases hc : s.fs.create s.arena.path with fault | ⟨id, fs⟩ <;> rw [hc] at h <;> cases h
  rfl

private theorem resize_neverRejected {capacity : Nat} (hmax : capacity ≤ maxCapacity) :
    NeverRejected (resize capacity) := by
  intro s e s' h
  rw [resize_apply, if_neg (Nat.not_lt_of_le hmax)] at h
  cases hid : s.fs.openToWrite s.arena.path with
  | ok id => rw [hid] at h; cases h
  | error fault => rw [hid] at h; cases h; exact isRejection_ofOpening _ _

private theorem assertExists_neverRejected : NeverRejected assertExists := by
  intro s e s' h
  rw [assertExists_apply] at h
  split at h <;> cases h
  rfl

private theorem openToRead_neverRejected : NeverRejected openToRead := by
  refine assertExists_neverRejected.bind fun _ => (map_neverRejected .readOnly).bind fun _ => ?_
  intro s e s' h
  cases h

private theorem openToWrite_neverRejected : NeverRejected openToWrite :=
  assertExists_neverRejected.bind fun _ => map_neverRejected .readWrite

private theorem remove_neverRejected : NeverRejected remove := by
  intro s e s' h
  rw [remove_apply] at h
  rcases hr : s.fs.remove s.arena.path with fault | fs
  · rw [hr] at h
    cases fault <;> cases h <;> rfl
  · rw [hr] at h
    cases h

/-! ### Calls that check before they change anything -/

private theorem resize_traceless (capacity : Nat) (s : State) : Traceless s (resize capacity s) := by
  by_cases hmax : capacity ≤ maxCapacity
  · exact (resize_neverRejected hmax).traceless s
  · rw [resize_apply, if_pos (Nat.lt_of_not_le hmax)]
    exact .rejected

/-- A capacity that has passed the checks of a creation passes that of a resizing, too. -/
theorem create_not_rejected {capacity : Nat} (hpos : 1 ≤ capacity) (hmax : capacity ≤ maxCapacity)
    (hpath : s.arena.path.isEmpty = false) {e : Error} {s' : State} (h : create capacity s = .error e s') :
    e.isRejection = false := by
  rw [create_apply, if_neg (by omega), if_neg (by omega), if_neg (by simp [hpath])] at h
  refine NeverRejected.bind ?_ (fun _ => map_neverRejected .readWrite) s e s' h
  split
  · exact resize_neverRejected hmax
  · exact createFile_neverRejected capacity

private theorem create_traceless (capacity : Nat) (s : State) : Traceless s (create capacity s) := by
  by_cases hpos : capacity = 0
  · rw [create_apply, if_pos hpos]
    exact .rejected
  by_cases hmax : maxCapacity < capacity
  · rw [create_apply, if_neg hpos, if_pos hmax]
    exact .rejected
  by_cases hpath : s.arena.path.isEmpty = true
  · rw [create_apply, if_neg hpos, if_neg hmax, if_pos hpath]
    exact .rejected
  cases h : create capacity s with
  | ok a s' => exact .done
  | error e s' => exact .failed (create_not_rejected (by omega) (by omega) (by simpa using hpath) h)

private theorem trim_traceless (s : State) : Traceless s (trim s) := by
  rw [trim_apply]
  split
  · exact resize_traceless s.arena.size s
  · exact .rejected

private theorem flush_traceless (s : State) : Traceless s (flush s) := by
  rw [flush_apply]
  split
  · exact .done
  · exact .rejected

private theorem look_traceless (f : State → Except Error α) (s : State) : Traceless s (look f s) := by
  rw [look_apply]
  cases f s with
  | ok a => exact .done
  | error e => exact .rejected

private theorem writeRange_traceless (layout : Layout) (o : Offset) (len : Nat) (bytes : List UInt8) (s : State) :
    Traceless s (writeRange layout o len bytes s) := by
  rw [writeRange_apply]
  cases s.arena.positionOf o len with
  | error e => exact .rejected
  | ok pos =>
    cases s.arena.writableMapping with
    | error e => exact .rejected
    | ok m =>
      dsimp only
      split
      · exact .done
      · exact .rejected

private theorem allocate_traceless (layout : Layout) (count : Nat) (s : State) :
    Traceless s (allocate layout count s) := by
  rw [allocate_apply]
  split
  · exact .rejected
  · cases s.arena.writableMapping with
    | error e => exact .rejected
    | ok m =>
      dsimp only
      split
      · exact .done
      · exact .rejected

/-! ### Calls that put values -/

/-- What was handed out can be written to, in an arena that is no longer than offsets reach. -/
theorem writeRange_of_allocate (hcap : s.arena.capacity ≤ maxCapacity) (h : allocate layout count s = .ok o s₁)
    (hlen : len ≤ layout.size * count) (bytes : List UInt8) :
    ∃ s₂, writeRange layout o len bytes s₁ = .ok () s₂ := by
  obtain ⟨m, hw, hpos, -, hstop, rfl, rfl⟩ := allocate_eq_ok.1 h
  have hm : s.arena.mapping = some m := (writableMapping_eq_ok.1 hw).1
  obtain ⟨hnull, hposition⟩ := (Offset.names_iff (roundUp s.arena.size layout.align)).2 (by omega)
  have hp : (s.reserved m.file (roundUp s.arena.size layout.align + layout.size * count)).arena.positionOf
      (.ofPosition (roundUp s.arena.size layout.align)) len = .ok (roundUp s.arena.size layout.align) := by
    refine positionOf_eq_ok.2 ⟨isOpen_eq_true.2 ⟨m, hm⟩, hnull, ?_, hposition.symm⟩
    rw [hposition]
    exact Nat.add_le_add_left hlen _
  have hw' : (s.reserved m.file (roundUp s.arena.size layout.align + layout.size * count)).arena.writableMapping =
      .ok m := writableMapping_eq_ok.2 (writableMapping_eq_ok.1 hw)
  rw [writeRange_apply, hp, hw']
  dsimp only
  rw [if_pos (roundUp_mod _ _)]
  exact ⟨_, rfl⟩

private theorem fill_traceless (hcap : s.arena.capacity ≤ maxCapacity) (hlen : len ≤ layout.size * count) :
    Traceless s ((allocate layout count >>= fun o => writeRange layout o len bytes >>= fun _ => pure o) s) := by
  have hallocate := allocate_traceless layout count s
  rw [bind_apply]
  cases h : allocate layout count s with
  | error e s₁ =>
    rw [h] at hallocate
    cases hallocate with
    | rejected => exact .rejected
    | failed he => exact .failed he
  | ok o s₁ =>
    obtain ⟨s₂, hw⟩ := writeRange_of_allocate hcap h hlen bytes
    dsimp only
    rw [bind_apply, hw]
    exact .done

private theorem pushText_traceless (hcap : s.arena.capacity ≤ maxCapacity) (text : String) :
    Traceless s (pushText text s) := by
  by_cases h0 : 0 ∈ Text.encode text
  · rw [pushText_of_nul h0]
    exact .rejected
  · rw [pushText_eq h0]
    refine fill_traceless hcap (Nat.le_trans (Nat.min_le_left _ _) ?_)
    rw [List.length_map]
    exact Nat.mul_le_mul_left _ (Nat.le_succ _)

end Traceless

/-! ### All calls -/

section Calls

variable {s s' : State}

theorem Call.traceless (hcap : s.arena.capacity ≤ maxCapacity) (c : Call) : Traceless s (c.run s) := by
  cases c with
  | create capacity => exact (create_traceless capacity s).answering
  | openToRead => exact (openToRead_neverRejected.traceless s).answering
  | openToWrite => exact (openToWrite_neverRejected.traceless s).answering
  | resize capacity => exact (resize_traceless capacity s).answering
  | trim => exact (trim_traceless s).answering
  | close => exact .done
  | remove => exact (remove_neverRejected.traceless s).answering
  | flush => exact (flush_traceless s).answering
  | allocate layout count => exact (allocate_traceless layout count s).answering
  | pushAll layout values => exact (fill_traceless hcap (Nat.min_le_left _ _)).answering
  | push layout value => exact (fill_traceless hcap (Nat.le_of_eq (Nat.mul_one _).symm)).answering
  | pushText text => exact (pushText_traceless hcap text).answering
  | write layout o value => exact (writeRange_traceless layout o _ _ s).answering
  | writeAll layout o values => exact (writeRange_traceless layout o _ _ s).answering
  | get layout o => exact (look_traceless _ s).answering
  | getAll layout o count => exact (look_traceless _ s).answering
  | getText o => exact (look_traceless _ s).answering
  | contents => exact (look_traceless _ s).answering

/-- A call for room that is there succeeds. -/
theorem allocate_of_room {m : Mapping} {layout : Layout} {count : Nat} (hcap : s.arena.capacity ≤ maxCapacity)
    (hw : s.arena.writableMapping = .ok m) (hpos : 0 < layout.size * count)
    (hroom : roundUp s.arena.size layout.align + layout.size * count ≤ s.arena.capacity) :
    ∃ s', (Call.allocate layout count).run s = .ok (.offset (.ofPosition (roundUp s.arena.size layout.align))) s' := by
  have hword : layout.size * count ≤ maxWord := Nat.le_trans (by omega) (show maxCapacity ≤ maxWord by decide)
  refine ⟨_, bind_pure_eq_ok.2 ⟨_, allocate_eq_ok.2 ⟨m, hw, hpos, hword, hroom, rfl, rfl⟩, rfl⟩⟩

/-- A call that is rejected, on an arena that is no longer than offsets reach, leaves the handle and all files as they
were, so that every run of calls after it goes on as without it.  In particular room that is there is handed out. -/
theorem rejected_call_changes_nothing (hcap : s.arena.capacity ≤ maxCapacity) (c : Call) {e : Error}
    (hrun : c.run s = .error e s') (he : e.isRejection = true) :
    s' = s ∧ (∀ calls, runAll (c :: calls) s = runAll calls s) ∧
      ∀ (layout : Layout) (count : Nat), s.arena.mode = some .readWrite → 0 < layout.size * count →
        roundUp s.arena.size layout.align + layout.size * count ≤ s.arena.capacity →
          ∃ s'', (Call.allocate layout count).run s' =
              .ok (.offset (.ofPosition (roundUp s.arena.size layout.align))) s'' ∧
            (Call.allocate layout count).run s =
              .ok (.offset (.ofPosition (roundUp s.arena.size layout.align))) s'' := by
  obtain rfl := (c.traceless hcap).state_eq hrun he
  refine ⟨rfl, fun calls => ?_, fun layout count hmode hpos hroom => ?_⟩
  · show runAll calls (left (c.run s')) = _
    rw [hrun, left_error]
  · obtain ⟨m, hm, hwritable⟩ := Option.map_eq_some_iff.1 hmode
    obtain ⟨s'', hs⟩ := allocate_of_room hcap (writableMapping_eq_ok.2 ⟨hm, hwritable⟩) hpos hroom
    exact ⟨s'', hs, hs⟩

/-- Eight of sixteen bytes are left: there is no room for two words, but for one. -/
theorem exhausted_call_changes_nothing :
    ∃ s pushed s'', create 16 ⟨.bare ⟨0⟩, .closed (.ofString "a")⟩ = .ok () s ∧
      (Call.push .word64 [1, 2, 3, 4, 5, 6, 7, 8]).run s = .ok (.offset ⟨0⟩) pushed ∧
      (Call.allocate .word64 2).run pushed = .error (.exhausted 16 8) pushed ∧
      (∀ calls, runAll (.allocate .word64 2 :: calls) pushed = runAll calls pushed) ∧
      (Call.allocate .word64 1).run pushed = .ok (.offset ⟨8⟩) s'' := by
  have hs : create 16 ⟨.bare ⟨0⟩, .closed (.ofString "a")⟩ = .ok () (left _) := eq_ok_of_answer (by decide +kernel)
  have hpush : (Call.push .word64 [1, 2, 3, 4, 5, 6, 7, 8]).run
      (left (create 16 ⟨.bare ⟨0⟩, .closed (.ofString "a")⟩)) = .ok (.offset ⟨0⟩) (left _) :=
    eq_ok_of_answer (by decide +kernel)
  have hrun : (Call.allocate .word64 2).run (left ((Call.push .word64 [1, 2, 3, 4, 5, 6, 7, 8]).run
      (left (create 16 ⟨.bare ⟨0⟩, .closed (.ofString "a")⟩)))) = .error (.exhausted 16 8) (left _) :=
    eq_error_of_answer (by decide +kernel)
  obtain ⟨hsame, hrest, hroom⟩ := rejected_call_changes_nothing (by decide +kernel) (.allocate .word64 2) hrun rfl
  obtain ⟨s'', -, hs''⟩ := hroom .word64 1 (by decide +kernel) (by decide) (by decide +kernel)
  rw [hsame] at hrun
  refine ⟨_, _, s'', hs, hpush, hrun, hrest, hs''.trans ?_⟩
  congr 2

/-! ### Runs -/

/-- The calls of a run that are not rejected. -/
def accepted : List Call → State → List Call
  | [], _ => []
  | c :: calls, s =>
    match c.run s with
    | .ok _ s' => c :: accepted calls s'
    | .error e s' => if e.isRejection then accepted calls s' else c :: accepted calls s'

/-- A run whose mappings are no longer than offsets reach leaves what it leaves without the calls that are rejected. -/
theorem runAll_accepted {calls : List Call}
    (h : ∀ front, front <+: calls → (runAll front s).arena.capacity ≤ maxCapacity) :
    runAll (accepted calls s) s = runAll calls s := by
  induction calls generalizing s with
  | nil => rfl
  | cons c calls ih =>
    have hcap : s.arena.capacity ≤ maxCapacity := h [] (List.nil_prefix)
    have hrest (front) (hf : front <+: calls) : (runAll front (left (c.run s))).arena.capacity ≤ maxCapacity :=
      h (c :: front) (List.cons_prefix_cons.2 ⟨rfl, hf⟩)
    show _ = runAll calls (left (c.run s))
    unfold accepted
    cases hrun : c.run s with
    | ok a s' =>
      rw [hrun] at hrest
      show runAll (accepted calls s') (left (c.run s)) = _
      rw [hrun]
      exact ih hrest
    | error e s' =>
      rw [hrun] at hrest
      dsimp only
      split
      · next he =>
        obtain rfl := (c.traceless hcap).state_eq hrun he
        exact ih hrest
      · show runAll (accepted calls s') (left (c.run s)) = _
        rw [hrun]
        exact ih hrest

end Calls

end Bindery.Arena
