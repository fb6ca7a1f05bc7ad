import Bindery.Proofs.Arena.Lifecycle
import Bindery.Proofs.Arena.Remapping

/-!
# What the file held before

An arena is begun over a file that may hold anything, and in a mapping that may be longer or shorter.  Neither shows.
Two arenas of which the same is allocated (`Twins`) end every call alike that allocates, writes or reads: with the same
answer or the same error, and again with the same allocated, unless one of the two is exhausted (`Call.endsAlike`).
Room that is handed out is zero wherever it is, the bytes skipped for the sake of alignment too, so what is allocated
is what the calls have put there.  By induction over the calls, the file that is left when it is cut down to what is
allocated is the same (`leftovers_do_not_show`).
-/

namespace Bindery.Arena

open Steps FileSystem

variable {s s' t t' : State} {m n : Mapping} {α β : Type}

/-! ### Arenas that stay written -/

namespace Writing

theorem of_openToWrite (h : openToWrite s = .ok () s') : ∃ m, Writing m s' ∧ s'.arena.size = 0 := by
  obtain ⟨_, s₁, -, h⟩ := bind_eq_ok.1 h
  obtain ⟨id, hid, rfl⟩ := map_eq_ok h
  exact ⟨_, ⟨rfl, rfl, hid⟩, rfl⟩

theorem reserved (h : Writing m s) (stop : Nat) : Writing m (s.reserved m.file stop) := h.modifyFile _ stop

theorem writeAt (h : Writing m s) (pos : Nat) (bytes : List UInt8) :
    Writing m ⟨s.fs.writeAt m.file pos bytes, s.arena⟩ := by
  unfold FileSystem.writeAt
  split
  · exact h
  · exact h.modifyFile _ s.arena.size

end Writing

/-! ### Twins -/

/-- Two arenas that are written, of which the same is allocated. -/
structure Twins (m n : Mapping) (s t : State) : Prop where
  left : Writing m s
  right : Writing n t
  alike : s.Alike t

namespace Twins

theorem of_empty (hs : Writing m s) (ht : Writing n t) (hs₀ : s.arena.size = 0) (ht₀ : t.arena.size = 0) :
    Twins m n s t := by
  refine ⟨hs, ht, ht.isOpen.trans hs.isOpen.symm, ht₀.trans hs₀.symm, ?_⟩
  rw [State.allocated_eq hs.mapping, State.allocated_eq ht.mapping, hs₀, ht₀]
  rfl

theorem of_backed (hs : BackedBy m s) (ht : BackedBy n t) (h : s.allocated = t.allocated) : Twins m n s t := by
  refine ⟨hs.toWriting, ht.toWriting, ht.isOpen.trans hs.isOpen.symm, ?_, h.symm⟩
  rw [← hs.length_allocated, ← ht.length_allocated, h]

/-- Whatever was in the two files, the room that is handed out is the same in both. -/
theorem reserved (h : Twins m n s t) {stop : Nat} (hstop : s.arena.size ≤ stop) :
    Twins m n (s.reserved m.file stop) (t.reserved n.file stop) := by
  refine ⟨h.left.reserved stop, h.right.reserved stop, h.alike.isOpen, rfl, ?_⟩
  rw [State.allocated_reserved h.left.mapping h.left.known hstop,
    State.allocated_reserved h.right.mapping h.right.known (h.alike.size ▸ hstop), h.alike.allocated]

theorem writeAt (h : Twins m n s t) (pos : Nat) (bytes : List UInt8) :
    Twins m n ⟨s.fs.writeAt m.file pos bytes, s.arena⟩ ⟨t.fs.writeAt n.file pos bytes, t.arena⟩ := by
  refine ⟨h.left.writeAt pos bytes, h.right.writeAt pos bytes, h.alike.isOpen, h.alike.size, ?_⟩
  have hall := h.alike.allocated
  rw [State.allocated_eq h.left.mapping, State.allocated_eq h.right.mapping, h.alike.size] at hall
  unfold State.allocated
  rw [State.bytes_writeAt h.left.mapping h.left.known, State.bytes_writeAt h.right.mapping h.right.known]
  dsimp only
  rw [h.alike.size]
  -- each byte is one of those that are written, or one that was there in both
  rw [Content.slice_eq_slice] at hall ⊢
  intro i hi
  rw [Content.byteAt_overwrite, Content.byteAt_overwrite, hall i hi]

end Twins

/-! ### Calls on twins -/

/-- Two runs on twins end alike: with the same answer or error, and with twins, or one of them for want of space. -/
inductive EndAlike (m n : Mapping) : EStateM.Result Error State α → EStateM.Result Error State α → Prop
  | done {a : α} {s t : State} (h : Twins m n s t) : EndAlike m n (.ok a s) (.ok a t)
  | failed {e : Error} {s t : State} (h : Twins m n s t) : EndAlike m n (.error e s) (.error e t)
  | exhaustedLeft {e : Error} {s : State} {r : EStateM.Result Error State α} (he : e.isExhausted = true) :
    EndAlike m n (.error e s) r
  | exhaustedRight {e : Error} {t : State} {r : EStateM.Result Error State α} (he : e.isExhausted = true) :
    EndAlike m n r (.error e t)

/-- An action ends alike on all twins. -/
def TreatsAlike (x : Action α) : Prop := ∀ m n s t, Twins m n s t → EndAlike m n (x s) (x t)

theorem TreatsAlike.bind {x : Action α} {f : α → Action β} (hx : TreatsAlike x) (hf : ∀ a, TreatsAlike (f a)) :
    TreatsAlike (x >>= f) := by
  intro m n s t h
  have hends := hx m n s t h
  rw [bind_apply, bind_apply]
  revert hends
  generalize x s = r
  generalize x t = r'
  intro hends
  cases hends with
  | done h => exact hf _ m n _ _ h
  | failed h => exact .failed h
  | exhaustedLeft he => exact .exhaustedLeft he
  | exhaustedRight he => exact .exhaustedRight he

theorem treatsAlike_pure (a : α) : TreatsAlike (pure a) := fun _ _ _ _ h => .done h

private theorem treatsAlike_look {f : State → Except Error α} (hf : ∀ s t : State, s.Alike t → f t = f s) :
    TreatsAlike (look f) := by
  intro m n s t h
  rw [look_apply, look_apply, hf s t h.alike]
  cases f s with
  | ok a => exact .done h
  | error e => exact .failed h

private theorem treatsAlike_flush : TreatsAlike flush := by
  intro m n s t h
  rw [flush_apply, flush_apply, if_pos h.left.isOpen, if_pos h.right.isOpen]
  exact .done h

private theorem treatsAlike_allocate (layout : Layout) (count : Nat) : TreatsAlike (allocate layout count) := by
  intro m n s t h
  rw [allocate_apply, allocate_apply, h.left.writableMapping_eq, h.right.writableMapping_eq, h.alike.size]
  by_cases hzero : count = 0 ∨ layout.size = 0
  · rw [if_pos hzero, if_pos hzero]
    exact .failed h
  rw [if_neg hzero, if_neg hzero]
  dsimp only
  -- the capacities may differ, and then one of the two can be exhausted
  by_cases hs : layout.size * count ≤ maxWord ∧
      roundUp s.arena.size layout.align + spanLength layout count ≤ s.arena.capacity
  · by_cases ht : layout.size * count ≤ maxWord ∧
        roundUp s.arena.size layout.align + spanLength layout count ≤ t.arena.capacity
    · rw [if_pos hs, if_pos ht]
      exact .done (h.reserved (Nat.le_add_right_of_le (le_roundUp _ layout.align_pos)))
    · rw [if_neg ht]
      exact .exhaustedRight rfl
  · rw [if_neg hs]
    exact .exhaustedLeft rfl

private theorem treatsAlike_writeRange (layout : Layout) (o : Offset) (len : Nat) (bytes : List UInt8) :
    TreatsAlike (writeRange layout o len bytes) := by
  intro m n s t h
  rw [writeRange_apply, writeRange_apply, h.left.writableMapping_eq, h.right.writableMapping_eq, h.alike.positionOf,
    h.alike.size]
  cases s.arena.positionOf o len with
  | error e => exact .failed h
  | ok pos =>
    dsimp only
    split
    · exact .done (h.writeAt pos bytes)
    · exact .failed h

private theorem treatsAlike_fill (layout : Layout) (count len : Nat) (bytes : List UInt8) :
    TreatsAlike (allocate layout count >>= fun o => writeRange layout o len bytes >>= fun _ => pure o) :=
  (treatsAlike_allocate layout count).bind fun o =>
    (treatsAlike_writeRange layout o len bytes).bind fun _ => treatsAlike_pure o

private theorem treatsAlike_pushText (text : String) : TreatsAlike (pushText text) := by
  by_cases h0 : 0 ∈ Text.encode text
  · intro m n s t h
    rw [pushText_of_nul h0, pushText_of_nul h0]
    exact .failed h
  · rw [pushText_eq h0]
    exact treatsAlike_fill .byte _ _ _

/-- A call that allocates, writes or reads ends alike on twins. -/
theorem Call.endsAlike {c : Call} (hc : c.Inside) : TreatsAlike c.run := by
  cases c with
  | create _ | openToRead | openToWrite | resize _ | trim | close | remove => exact hc.elim
  | flush => exact treatsAlike_flush.bind fun _ => treatsAlike_pure _
  | allocate layout count => exact (treatsAlike_allocate layout count).bind fun _ => treatsAlike_pure _
  | pushAll layout values => exact (treatsAlike_fill layout _ _ _).bind fun _ => treatsAlike_pure _
  | push layout value => exact (treatsAlike_fill layout 1 _ _).bind fun _ => treatsAlike_pure _
  | pushText text => exact (treatsAlike_pushText text).bind fun _ => treatsAlike_pure _
  | write layout o value => exact (treatsAlike_writeRange layout o _ _).bind fun _ => treatsAlike_pure _
  | writeAll layout o values => exact (treatsAlike_writeRange layout o _ _).bind fun _ => treatsAlike_pure _
  | get layout o => exact (treatsAlike_look fun _ _ h => h.readRange).bind fun _ => treatsAlike_pure _
  | getAll layout o count => exact (treatsAlike_look fun _ _ h => h.readRange).bind fun _ => treatsAlike_pure _
  | getText o => exact (treatsAlike_look fun _ _ h => h.getText).bind fun _ => treatsAlike_pure _
  | contents => exact (treatsAlike_look fun _ _ h => h.contents).bind fun _ => treatsAlike_pure _

/-- A call that succeeds on two arenas with the same allocated bytes answers the same on both and leaves the same
bytes. -/
theorem Call.run_congr (hs : BackedBy m s) (ht : BackedBy n t) (h : s.allocated = t.allocated) {c : Call}
    (hc : c.Inside) {a b : Answer} (hrun : c.run s = .ok a s') (hrun' : c.run t = .ok b t') :
    a = b ∧ BackedBy m s' ∧ BackedBy n t' ∧ s'.allocated = t'.allocated := by
  have hends := Call.endsAlike hc m n s t (.of_backed hs ht h)
  rw [hrun, hrun'] at hends
  cases hends with
  | done h =>
    exact ⟨rfl, (c.done_of_ok hs hc hrun).2.backed, (c.done_of_ok ht hc hrun').2.backed, h.alike.allocated.symm⟩

/-! ### Runs on twins -/

/-- What the calls of a run answer, or why they fail. -/
def answersTo : List Call → State → List (Except Error Answer)
  | [], _ => []
  | c :: calls, s => answer (c.run s) :: answersTo calls (left (c.run s))

/-- No call of a run fails for want of space. -/
def NeverExhausted (calls : List Call) (s : State) : Prop := ∀ e, .error e ∈ answersTo calls s → e.isExhausted = false

theorem Twins.run (h : Twins m n s t) {calls : List Call} (hcalls : ∀ c ∈ calls, c.Inside)
    (hs : NeverExhausted calls s) (ht : NeverExhausted calls t) :
    answersTo calls t = answersTo calls s ∧ Twins m n (runAll calls s) (runAll calls t) := by
  induction calls generalizing s t with
  | nil => exact ⟨rfl, h⟩
  | cons c calls ih =>
    obtain ⟨hc, hcalls⟩ := List.forall_mem_cons.1 hcalls
    have hs₁ (e) (he : answer (c.run s) = .error e) : e.isExhausted = false := hs e (he ▸ List.mem_cons_self)
    have ht₁ (e) (he : answer (c.run t) = .error e) : e.isExhausted = false := ht e (he ▸ List.mem_cons_self)
    have hstep : answer (c.run t) = answer (c.run s) ∧ Twins m n (Steps.left (c.run s)) (Steps.left (c.run t)) := by
      have hends := Call.endsAlike hc m n s t h
      revert hends hs₁ ht₁
      generalize c.run s = r
      generalize c.run t = r'
      intro hs₁ ht₁ hends
      cases hends with
      | done h => exact ⟨rfl, h⟩
      | failed h => exact ⟨rfl, h⟩
      | exhaustedLeft he => cases he.symm.trans (hs₁ _ rfl)
      | exhaustedRight he => cases he.symm.trans (ht₁ _ rfl)
    obtain ⟨hanswers, htwins⟩ := ih hstep.2 hcalls (fun e he => hs e (List.mem_cons_of_mem _ he))
      fun e he => ht e (List.mem_cons_of_mem _ he)
    refine ⟨?_, htwins⟩
    unfold answersTo
    rw [hstep.1, hanswers]

theorem path_runAll (calls : List Call) (s : State) : (runAll calls s).arena.path = s.arena.path := by
  induction calls generalizing s with
  | nil => rfl
  | cons c calls ih => exact (ih _).trans (c.samePath s)

/-- What is allocated in an arena that was created can be told from the start by offsets. -/
theorem size_runAll_le_of_create {s₀ : State} {capacity : Nat} (h : create capacity s₀ = .ok () s) {calls : List Call}
    (hcalls : ∀ c ∈ calls, c.Inside) : (runAll calls s).arena.size ≤ maxCapacity := by
  obtain ⟨m, hm, -⟩ := BackedBy.of_create h
  have hrun := (hm.runAll hcalls).1
  exact Nat.le_trans hrun.size_le hrun.length_le

/-- Take any two files, or none, at any two paths, make an arena of each, of any capacity, or open it for writing, and
make the same calls on both.  If neither arena is ever exhausted, every call ends the same on both, and the same is
allocated, gaps and terminators included.  Cutting the two files down to that leaves the same two files.  It can be
refused only to an arena that was opened on a longer file than offsets reach into. -/
theorem leftovers_do_not_show {s₀ t₀ s t : State}
    (hs : (∃ capacity, create capacity s₀ = .ok () s) ∨ openToWrite s₀ = .ok () s)
    (ht : (∃ capacity, create capacity t₀ = .ok () t) ∨ openToWrite t₀ = .ok () t)
    {calls : List Call} (hcalls : ∀ c ∈ calls, c.Inside) (hfit : NeverExhausted calls s)
    (hfit' : NeverExhausted calls t) :
    answersTo calls t = answersTo calls s ∧
      ∃ bytes, (runAll calls s).contents = .ok bytes ∧ (runAll calls t).contents = .ok bytes ∧
        (bytes.length ≤ maxCapacity → ∃ s' t', trim (runAll calls s) = .ok () s' ∧ trim (runAll calls t) = .ok () t' ∧
          s'.fs.read s.arena.path = .ok bytes ∧ t'.fs.read t.arena.path = .ok bytes) ∧
        ((∃ capacity, create capacity s₀ = .ok () s) ∨ (∃ capacity, create capacity t₀ = .ok () t) →
          bytes.length ≤ maxCapacity) := by
  have hbegun {u₀ u : State} (h : (∃ capacity, create capacity u₀ = .ok () u) ∨ openToWrite u₀ = .ok () u) :
      ∃ m, Writing m u ∧ u.arena.size = 0 := by
    rcases h with ⟨capacity, h⟩ | h
    · obtain ⟨m, hm, -, hsize⟩ := BackedBy.of_create h
      exact ⟨m, hm.toWriting, hsize⟩
    · exact Writing.of_openToWrite h
  obtain ⟨m, hm, hsize⟩ := hbegun hs
  obtain ⟨n, hn, hsize'⟩ := hbegun ht
  obtain ⟨hanswers, hl, hr, halike⟩ := (Twins.of_empty hm hn hsize hsize').run hcalls hfit hfit'
  have hlen : (runAll calls s).allocated.length = (runAll calls s).arena.size := State.length_allocated hl.mapping
  refine ⟨hanswers, (runAll calls s).allocated, State.contents_eq_ok.2 ⟨hl.isOpen, rfl⟩,
    State.contents_eq_ok.2 ⟨hr.isOpen, halike.allocated.symm⟩, fun hmax => ?_, ?_⟩
  · rw [hlen] at hmax
    obtain ⟨s', hs', -, hread⟩ := trim_of_opens hl.mapping hl.opens hmax
    obtain ⟨t', ht', -, hread'⟩ := trim_of_opens hr.mapping hr.opens (halike.size ▸ hmax)
    rw [path_runAll] at hread hread'
    exact ⟨s', t', hs', ht', hread, halike.allocated ▸ hread'⟩
  · rw [hlen]
    rintro (⟨capacity, h⟩ | ⟨capacity, h⟩)
    · exact size_runAll_le_of_create h hcalls
    · rw [← halike.size]
      exact size_runAll_le_of_create h hcalls

/-- A text and two words of which the second is written, in an old file of ones and in a new one that is shorter. -/
theorem leftovers_do_not_show_in_old_file :
    ∃ s t s' t', openToWrite ⟨(bare ⟨0⟩).addFile [Text.encode "a"] ⟨.ofList (List.replicate 24 255), ⟨0⟩⟩,
        closed (.ofString "a")⟩ = .ok () s ∧
      create 16 ⟨bare ⟨0⟩, closed (.ofString "b")⟩ = .ok () t ∧
      trim (runAll [.pushText "ab", .allocate .word32 2, .write .word32 ⟨8⟩ [1, 2, 3, 4]] s) = .ok () s' ∧
      trim (runAll [.pushText "ab", .allocate .word32 2, .write .word32 ⟨8⟩ [1, 2, 3, 4]] t) = .ok () t' ∧
      s'.fs.read (.ofString "a") = .ok [97, 98, 0, 0, 0, 0, 0, 0, 1, 2, 3, 4] ∧
      t'.fs.read (.ofString "b") = .ok [97, 98, 0, 0, 0, 0, 0, 0, 1, 2, 3, 4] := by
  have hs : openToWrite ⟨(bare ⟨0⟩).addFile [Text.encode "a"] ⟨.ofList (List.replicate 24 255), ⟨0⟩⟩,
      closed (.ofString "a")⟩ = .ok () (left _) := eq_ok_of_answer (by decide +kernel)
  have ht : create 16 ⟨bare ⟨0⟩, closed (.ofString "b")⟩ = .ok () (left _) := eq_ok_of_answer (by decide +kernel)
  have hfits {u : State} (h : answersTo [.pushText "ab", .allocate .word32 2, .write .word32 ⟨8⟩ [1, 2, 3, 4]] u =
      [.ok (.offset ⟨0⟩), .ok (.offset ⟨4⟩), .ok .done]) :
      NeverExhausted [.pushText "ab", .allocate .word32 2, .write .word32 ⟨8⟩ [1, 2, 3, 4]] u := by
    intro e he
    rw [h] at he
    simp at he
  obtain ⟨-, bytes, hbytes, -, htrim, hshort⟩ := leftovers_do_not_show (.inr hs) (.inl ⟨16, ht⟩)
    (by decide) (hfits (by decide +kernel)) (hfits (by decide +kernel))
  obtain ⟨s', t', hs', ht', hread, hread'⟩ := htrim (hshort (.inr ⟨16, ht⟩))
  have hall : bytes = [97, 98, 0, 0, 0, 0, 0, 0, 1, 2, 3, 4] :=
    (State.contents_eq_ok.1 hbytes).2.trans (by decide +kernel)
  exact ⟨_, _, s', t', hs, ht, hs', ht', hall ▸ hread, hall ▸ hread'⟩

end Bindery.Arena
