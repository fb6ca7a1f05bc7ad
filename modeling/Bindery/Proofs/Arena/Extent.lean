import Bindery.Proofs.Arena.Effects

/-!
# How much space calls take

Where the allocated region ends after calls that all succeed can be told from the calls, before any of them is made
and for an arena of any capacity (`extent`).  Calls that succeed end there, and a call that fails for want of space
would end behind the capacity, and so would all that come after it (`le_of_extent`).

Some calls cannot fail otherwise, wherever the region ends that they begin with (`Call.Sound`).
-/

namespace Bindery.Arena

open Steps

/-! ### Extents -/

/-- Where the allocated region ends when calls are made in an arena without limit, if 64 bits can hold the numbers of
bytes that they ask for. -/
def extent (size : Nat) (calls : List Call) : Option Nat := calls.foldlM (fun n c => c.effect.stop? n) size

theorem extent_cons (size : Nat) (c : Call) (calls : List Call) :
    extent size (c :: calls) = (c.effect.stop? size).bind fun n => extent n calls := rfl

theorem extent_append (size : Nat) (calls more : List Call) :
    extent size (calls ++ more) = (extent size calls).bind fun n => extent n more := List.foldlM_append

/-- No call gives space back. -/
theorem le_of_extent {size n : Nat} {calls : List Call} (h : extent size calls = some n) : size ≤ n := by
  induction calls generalizing size with
  | nil => exact Nat.le_of_eq (Option.some.inj h)
  | cons c calls ih =>
    rw [extent_cons] at h
    obtain ⟨k, hk, hn⟩ := Option.bind_eq_some_iff.1 h
    exact Nat.le_trans (Effect.le_of_stop? hk) (ih hn)

/-! ### Calls that only space can stop -/

/-- A call that asks for some room, or writes within a region of a size.  Nothing but a want of space can make it
fail. -/
def Call.Sound (size : Nat) : Call → Prop
  | .allocate layout count => 0 < layout.size * count
  | .pushAll layout values => 0 < layout.size * values.length
  | .push layout _ => 0 < layout.size
  | .pushText text => 0 ∉ Text.encode text
  | .write layout o _ => o ≠ .null ∧ o.position + layout.size ≤ size ∧ o.position % layout.align = 0
  | .writeAll layout o values =>
    o ≠ .null ∧ o.position + layout.size * values.length ≤ size ∧ o.position % layout.align = 0
  | _ => False

instance (size : Nat) : (c : Call) → Decidable (c.Sound size)
  | .allocate layout count => inferInstanceAs (Decidable (0 < layout.size * count))
  | .pushAll layout values => inferInstanceAs (Decidable (0 < layout.size * values.length))
  | .push layout _ => inferInstanceAs (Decidable (0 < layout.size))
  | .pushText text => inferInstanceAs (Decidable (0 ∉ Text.encode text))
  | .write _ _ _ | .writeAll _ _ _ => inferInstanceAs (Decidable (_ ∧ _ ∧ _))
  | .create _ | .openToRead | .openToWrite | .resize _ | .trim | .close | .remove | .flush | .get _ _
  | .getAll _ _ _ | .getText _ | .contents => .isFalse id

/-- Each of several calls is sound where those before it end. -/
def SoundFrom : Nat → List Call → Prop
  | _, [] => True
  | size, c :: calls => c.Sound size ∧ ∀ n ∈ c.effect.stop? size, SoundFrom n calls

instance decidableSoundFrom : (size : Nat) → (calls : List Call) → Decidable (SoundFrom size calls)
  | _, [] => .isTrue trivial
  | size, c :: calls =>
    have : DecidablePred fun n => SoundFrom n calls := fun n => decidableSoundFrom n calls
    inferInstanceAs (Decidable (c.Sound size ∧ ∀ n ∈ c.effect.stop? size, SoundFrom n calls))

section Sound

variable {m : Mapping} {s s' : State} {layout : Layout} {count : Nat} {bytes : List UInt8} {o : Offset} {len : Nat}
  {err : Error}

private theorem Appends.exhausted {x : Action Offset} (h : Appends m s layout count bytes x)
    (hpos : 0 < layout.size * count) (he : (x >>= fun o => pure (Answer.offset o)) s = .error err s') :
    err.isExhausted = true := by
  rw [bind_pure_eq_error] at he
  rcases h with ⟨s₁, hs, -⟩ | ⟨err', hs, -, hspace⟩
  · rw [hs] at he
    cases he
  · rw [hs] at he
    cases he
    exact hspace hpos

/-- A write within the region succeeds. -/
private theorem writeRange_ne_error (h : BackedBy m s) (hnull : o ≠ .null) (hle : o.position + len ≤ s.arena.size)
    (ha : o.position % layout.align = 0) : writeRange layout o len bytes s ≠ .error err s' := by
  rw [writeRange_apply, positionOf_eq_ok.2 ⟨h.isOpen, hnull, hle, rfl⟩, h.writableMapping_eq]
  dsimp only
  rw [if_pos ha]
  nofun

theorem Call.exhausted_of_sound (h : BackedBy m s) {c : Call} (hc : c.Inside) (hs : c.Sound s.arena.size)
    (he : c.run s = .error err s') : err.isExhausted = true := by
  cases c with
  | create _ | openToRead | openToWrite | resize _ | trim | close | remove => exact hc.elim
  | flush | get _ _ | getAll _ _ _ | getText _ | contents => exact hs.elim
  | allocate layout count => exact (appends_allocate h layout count).exhausted hs he
  | pushAll layout values => exact (appends_pushAll h hc).exhausted hs he
  | push layout value => exact (appends_push h hc).exhausted (Nat.lt_of_lt_of_eq hs (Nat.mul_one _).symm) he
  | pushText text =>
    exact (appends_pushText h hs).exhausted (Nat.mul_pos (by decide) (Nat.succ_pos _)) he
  | write layout o value =>
    obtain ⟨hnull, hle, ha⟩ := hs
    exact absurd (bind_pure_eq_error.1 he) (writeRange_ne_error h hnull hle ha)
  | writeAll layout o values =>
    obtain ⟨hnull, hle, ha⟩ := hs
    have hspan : spanLength layout values.length ≤ layout.size * values.length := Nat.min_le_left _ _
    exact absurd (bind_pure_eq_error.1 he) (writeRange_ne_error h hnull (by omega) ha)

/-- A sound call succeeds where there is room. -/
theorem Call.ok_of_sound (h : BackedBy m s) {c : Call} (hc : c.Inside) (hs : c.Sound s.arena.size) {n : Nat}
    (hn : c.effect.stop? s.arena.size = some n) (hle : n ≤ m.length) : ∃ a s', c.run s = .ok a s' := by
  cases hrun : c.run s with
  | ok a s' => exact ⟨a, s', rfl⟩
  | error err s' =>
    obtain ⟨-, hr⟩ := c.refused_of_error h hc hrun
    have := hr (c.exhausted_of_sound h hc hs hrun) n hn
    omega

end Sound

end Bindery.Arena
