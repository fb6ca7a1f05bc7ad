import Bindery.Proofs.Arena.Extent
import Bindery.Proofs.Arena.Leftovers
import Bindery.Proofs.Artifact.RoundTrip

/-!
# Writers that make a list of calls

The writer of a payload may be a fixed list of calls that allocate, write and read, made up to the first one that
fails (`Builder.callsWriter`).  Then an attempt with such a writer is a list of calls, too, and the end of what they
allocate (`Builder.extent`) decides whether it has room enough (`Builder.attempt_ends`).  What an attempt leaves in
its file if it succeeds depends on the calls alone, neither on its capacity nor on what was in the file before
(`Builder.attempt_congr`).
-/

namespace Bindery

open Steps FileSystem Arena Artifact

/-! ### Lists of calls as scripts -/

namespace Script

variable {root : List Answer → Offset} {calls : List Call} {answers : List Answer} {m m' : Mapping}
  {s s' t t' : State}

/-- Makes calls one after the other, up to the first that fails.  The root may depend on the answers. -/
def ofCalls (root : List Answer → Offset) : List Call → List Answer → Script Unit
  | [], answers => .finish (.ok (root answers)) ()
  | c :: calls, answers => .call c fun
    | .ok a => ofCalls root calls (answers ++ [a])
    | .error e => .finish (.error (.arena e)) ()

theorem run_ofCalls_cons (c : Call) (s : State) :
    (ofCalls root (c :: calls) answers).run s =
      match c.run s with
      | .ok a s' => (ofCalls root calls (answers ++ [a])).run s'
      | .error e s' => (.error (.arena e), s', ()) := by
  show (match answer (c.run s) with
    | .ok a => ofCalls root calls (answers ++ [a])
    | .error e => .finish (.error (.arena e)) () : Script Unit).run (left (c.run s)) = _
  cases c.run s <;> rfl

/-- Calls that all succeed end at their extent, and one that fails for want of space has one behind the capacity. -/
theorem ofCalls_cases (h : BackedBy m s) (hc : ∀ c ∈ calls, c.Inside) (root : List Answer → Offset)
    (answers : List Answer) :
    (∃ o s', (ofCalls root calls answers).run s = (.ok o, s', ()) ∧ BackedBy m s' ∧ s'.arena.path = s.arena.path ∧
      Arena.extent s.arena.size calls = some s'.arena.size) ∨
    ∃ e s', (ofCalls root calls answers).run s = (.error (.arena e), s', ()) ∧ BackedBy m s' ∧
      s'.arena.path = s.arena.path ∧
      (e.isExhausted = true → ∀ n, Arena.extent s.arena.size calls = some n → m.length < n) := by
  induction calls generalizing s answers with
  | nil => exact .inl ⟨_, s, rfl, h, rfl, rfl⟩
  | cons c calls ih =>
    rw [run_ofCalls_cons]
    cases hrun : c.run s with
    | error e s' =>
      obtain ⟨rfl, hr⟩ := c.refused_of_error h (hc c List.mem_cons_self) hrun
      refine .inr ⟨e, s', rfl, h, rfl, fun he n hn => ?_⟩
      rw [extent_cons] at hn
      obtain ⟨k, hk, hn⟩ := Option.bind_eq_some_iff.1 hn
      exact Nat.lt_of_lt_of_le (hr he k hk) (le_of_extent hn)
    | ok a s' =>
      obtain ⟨-, hd⟩ := c.done_of_ok h (hc c List.mem_cons_self) hrun
      rw [extent_cons, hd.stop, ← hd.path]
      exact ih hd.backed (fun c hcs => hc c (List.mem_cons_of_mem _ hcs)) (answers ++ [a])

/-- Calls that are sound where they begin fail for want of space alone. -/
theorem exhausted_of_soundFrom (h : BackedBy m s) (hc : ∀ c ∈ calls, c.Inside) (hs : SoundFrom s.arena.size calls)
    {e : Artifact.Error} {u : Unit} (hrun : (ofCalls root calls answers).run s = (.error e, s', u)) :
    e.isExhausted = true := by
  induction calls generalizing s answers with
  | nil => cases hrun
  | cons c calls ih =>
    rw [run_ofCalls_cons] at hrun
    cases hcall : c.run s with
    | error e' s₁ =>
      rw [hcall] at hrun
      cases hrun
      exact c.exhausted_of_sound h (hc c List.mem_cons_self) hs.1 hcall
    | ok a s₁ =>
      rw [hcall] at hrun
      obtain ⟨-, hd⟩ := c.done_of_ok h (hc c List.mem_cons_self) hcall
      exact ih hd.backed (fun c hcs => hc c (List.mem_cons_of_mem _ hcs)) (hs.2 _ hd.stop) hrun

/-- Calls that all succeed on two arenas with the same bytes leave the same bytes, and have the same root. -/
theorem ofCalls_congr (hs : BackedBy m s) (ht : BackedBy m' t) (h : s.allocated = t.allocated)
    (hc : ∀ c ∈ calls, c.Inside) {o o' : Offset} {u u' : Unit}
    (hrun : (ofCalls root calls answers).run s = (.ok o, s', u))
    (hrun' : (ofCalls root calls answers).run t = (.ok o', t', u')) :
    o = o' ∧ BackedBy m s' ∧ BackedBy m' t' ∧ s'.allocated = t'.allocated := by
  induction calls generalizing s t answers with
  | nil =>
    cases hrun
    cases hrun'
    exact ⟨rfl, hs, ht, h⟩
  | cons c calls ih =>
    rw [run_ofCalls_cons] at hrun hrun'
    cases hcs : c.run s with
    | error e s₁ => rw [hcs] at hrun; cases hrun
    | ok a s₁ =>
      cases hct : c.run t with
      | error e t₁ => rw [hct] at hrun'; cases hrun'
      | ok b t₁ =>
        rw [hcs] at hrun
        rw [hct] at hrun'
        obtain ⟨rfl, hs₁, ht₁, h₁⟩ := c.run_congr hs ht h (hc c List.mem_cons_self) hcs hct
        exact ih hs₁ ht₁ h₁ (fun c hcs => hc c (List.mem_cons_of_mem _ hcs)) hrun hrun'

end Script

namespace Builder

open Build

variable {b b' : Builder} {m : Metadata} {root : List Answer → Offset} {calls : List Call} {mp mp' : Mapping}

/-- The writer that makes a list of calls. -/
def callsWriter (root : List Answer → Offset) (calls : List Call) : Writer Unit :=
  Script.writer fun _ => Script.ofCalls root calls []

theorem callsWriter_apply (s : State) (u : Unit) :
    callsWriter root calls (s, u) =
      match (Script.ofCalls root calls []).run s with
      | (.ok o, s, u) => .ok o (s, u)
      | (.error e, s, u) => .error e (s, u) := by
  unfold callsWriter Script.writer
  dsimp only
  rcases (Script.ofCalls root calls []).run s with ⟨_ | _, s', u'⟩ <;> rfl

/-- The call that puts a header without places at the front of an arena. -/
def headerCall (b : Builder) : Call := .push headerLayout (Header.ofKind b.payloadKind).encode

/-- The call that puts metadata behind a payload. -/
def metadataCall (m : Metadata) : Call := .pushAll .byte (m.encode.map fun byte => [byte])

/-- The size of an artifact for whose payload calls are made, in an arena without limit. -/
def extent (b : Builder) (m : Metadata) (calls : List Call) : Option Nat :=
  Arena.extent 0 (b.headerCall :: (calls ++ [metadataCall m]))

theorem extent_eq (b : Builder) (m : Metadata) (calls : List Call) :
    b.extent m calls = (b.headerCall.effect.stop? 0).bind fun n =>
      (Arena.extent n calls).bind (metadataCall m).effect.stop? := by
  unfold extent
  rw [extent_cons]
  congr 1
  funext n
  rw [extent_append]
  congr 1
  funext n
  rw [extent_cons]
  cases (metadataCall m).effect.stop? n <;> rfl

theorem inside_headerCall (b : Builder) : b.headerCall.Inside := Header.length_encode_ofKind b.payloadKind

theorem inside_metadataCall (m : Metadata) : (metadataCall m).Inside := by
  intro v hv
  obtain ⟨byte, -, rfl⟩ := List.mem_map.1 hv
  rfl

theorem sound_headerCall (b : Builder) (size : Nat) : b.headerCall.Sound size := show 0 < headerSize by decide

theorem sound_metadataCall (m : Metadata) (size : Nat) : (metadataCall m).Sound size := by
  have hpos : 0 < m.encode.length := m.length_encode_pos
  show 0 < Layout.byte.size * (m.encode.map _).length
  rw [List.length_map]
  exact Nat.mul_pos (by decide) hpos

/-- The largest capacity that is tried. -/
def largestCapacity (b : Builder) : Nat := max 1 b.maxCapacity

/-- What a writer reports, in an arena of whatever capacity up to the largest and behind a header, is a want of space
and nothing else. -/
def StopsForSpace {σ : Type} (b : Builder) (w : Writer σ) : Prop :=
  ∀ capacity ≤ b.largestCapacity, ∀ (s created pushed : State) (header : Offset),
    create capacity s = .ok () created →
      push headerLayout (Header.ofKind b.payloadKind).encode created = .ok header pushed →
        ∀ u e s', w (pushed, u) = .error e s' → e.isExhausted = true

section Steps

variable {σ α : Type} {s s' t t' created : State} {capacity : Nat}

/-- A call on an arena as a step of a build, with its effect. -/
theorem onArena_cases {x : Arena.Action α} {f : α → Answer} {c : Call} (hx : c.run = x >>= fun a => pure (f a))
    (h : BackedBy mp s) (hc : c.Inside) (u : σ) :
    (∃ a s', onArena x (s, u) = .ok a (s', u) ∧ c.effect.Answers s.arena.size (f a) ∧ c.effect.Done mp s s') ∨
      ∃ e, onArena x (s, u) = .error (.arena e) (s, u) ∧ c.run s = .error e s ∧ c.effect.Refused mp s e := by
  rw [onArena_apply]
  cases hs : x s with
  | ok a s' =>
    have hrun : c.run s = .ok (f a) s' := by rw [hx]; exact bind_pure_eq_ok.2 ⟨a, hs, rfl⟩
    obtain ⟨ha, hd⟩ := c.done_of_ok h hc hrun
    exact .inl ⟨a, s', rfl, ha, hd⟩
  | error e s' =>
    have hrun : c.run s = .error e s' := by rw [hx]; exact bind_pure_eq_error.2 hs
    obtain ⟨rfl, hr⟩ := c.refused_of_error h hc hrun
    exact .inr ⟨e, rfl, hrun, hr⟩

/-- The header at the front of a region, with the places of a payload and of metadata filled in. -/
def filledHeader (region : List UInt8) (root block : Offset) (n : Nat) : Header :=
  { Header.decode (region.take headerSize) with
    payloadRoot := root.raw
    metadataOffset := block.raw
    metadataLength := UInt32.ofNat n }

theorem length_encode_filledHeader {region : List UInt8} (h : headerSize ≤ region.length) (root block : Offset)
    (n : Nat) : (filledHeader region root block n).encode.length = headerSize := by
  have hlen : (region.take headerSize).length = headerSize := List.length_take_of_le h
  refine Header.length_encode ?_ ?_
  · show ((region.take headerSize).take 8).length = 8
    rw [List.length_take, hlen]
    rfl
  · show ((region.take headerSize).drop 28).length = 36
    rw [List.length_drop, hlen]
    rfl

/-- A header that is in an arena can be filled in. -/
theorem placeHeader_eq_ok (h : BackedBy mp s) (hsize : headerSize ≤ s.arena.size) (root block : Offset) (n : Nat) :
    ∃ s', placeHeader (.ofPosition 0) root block n s = .ok () s' ∧ BackedBy mp s' ∧ s'.arena.path = s.arena.path ∧
      s'.arena.size = s.arena.size ∧
      s'.allocated =
        (Effect.overwrite (.ofPosition 0) (filledHeader s.allocated root block n).encode).apply s.allocated := by
  have hin : (Offset.ofPosition 0).position + headerLayout.size ≤ s.arena.size := (Nat.zero_add headerSize).symm ▸ hsize
  have hget : s.get headerLayout (.ofPosition 0) = .ok (s.allocated.take headerSize) :=
    State.readRange_eq_ok.2 ⟨h.isOpen, by decide, hin, rfl, rfl⟩
  -- the new header is as long as the old one, so that it fits in its place
  let c : Call := .write headerLayout (.ofPosition 0) (filledHeader s.allocated root block n).encode
  have hc : c.Inside := length_encode_filledHeader (h.length_allocated.symm ▸ hsize) root block n
  have hsound : c.Sound s.arena.size := ⟨by decide, hin, rfl⟩
  obtain ⟨a, s', hrun⟩ := Call.ok_of_sound h hc hsound rfl h.size_le
  obtain ⟨-, hd⟩ := Call.done_of_ok h hc hrun
  obtain ⟨_, hwrite, -⟩ := bind_pure_eq_ok.1 hrun
  unfold placeHeader
  rw [bind_apply, look_apply, hget]
  exact ⟨s', hwrite, hd.backed, hd.path, (Option.some.inj hd.stop).symm, hd.allocated⟩

theorem placeHeader_done (h : BackedBy mp s) {root block : Offset} {n : Nat}
    (hp : placeHeader (.ofPosition 0) root block n s = .ok () s') :
    BackedBy mp s' ∧
      s'.allocated =
        (Effect.overwrite (.ofPosition 0) (filledHeader s.allocated root block n).encode).apply s.allocated := by
  have hsize : headerSize ≤ s.arena.size := by
    obtain ⟨bytes, s₁, hlook, -⟩ := bind_eq_ok.1 hp
    rw [look_apply] at hlook
    cases hget : s.get headerLayout (.ofPosition 0) with
    | error e => rw [hget] at hlook; cases hlook
    | ok bytes =>
      obtain ⟨-, -, hle, -⟩ := State.readRange_eq_ok.1 hget
      exact Nat.le_trans (Nat.le_add_left _ _) hle
  obtain ⟨s₁, hp₁, hb, -, -, hall⟩ := placeHeader_eq_ok h hsize root block n
  obtain rfl : s₁ = s' := by
    rw [hp₁] at hp
    cases hp
    rfl
  exact ⟨hb, hall⟩

private theorem size_pushed (hzero : s.arena.size = 0) (hd : b.headerCall.effect.Done mp s s') :
    s'.arena.size = headerSize := by
  have hstop := hd.stop
  rw [hzero] at hstop
  exact (Option.some.inj hstop).symm

/-- Calls that are sound behind a header stop for want of space alone. -/
theorem stopsForSpace_of_soundFrom (hc : ∀ c ∈ calls, c.Inside) (hs : SoundFrom headerSize calls) :
    b.StopsForSpace (callsWriter root calls) := by
  intro capacity _ s created pushed header hcreate hpush u e s' hw
  obtain ⟨mp, hcreated, -, hzero⟩ := BackedBy.of_create hcreate
  have hrun : b.headerCall.run created = .ok (.offset header) pushed := bind_pure_eq_ok.2 ⟨_, hpush, rfl⟩
  obtain ⟨-, hd⟩ := Call.done_of_ok hcreated b.inside_headerCall hrun
  rw [callsWriter_apply] at hw
  rcases hcalls : (Script.ofCalls root calls []).run pushed with ⟨e' | o, t, v⟩ <;> rw [hcalls] at hw <;> cases hw
  exact Script.exhausted_of_soundFrom hd.backed hc ((size_pushed hzero hd).symm ▸ hs) hcalls

end Steps

/-! ### Attempts -/

section Attempts

variable {s s' t t' created : State} {capacity capacity' size size' : Nat}

/-- A capacity is too small for an artifact. -/
def TooSmall (b : Builder) (m : Metadata) (calls : List Call) (capacity : Nat) : Prop :=
  ∀ n, b.extent m calls = some n → capacity < n

/-- How an attempt ends: with an artifact as large as its extent, or with an error and the staging file in place.  It
fails for want of space only if there is too little, and for no other reason if the writer has none. -/
inductive AttemptEnds (b : Builder) (m : Metadata) (root : List Answer → Offset) (calls : List Call)
    (capacity : Nat) : EStateM.Result Artifact.Error (State × Unit) Nat → Prop
  | done {n : Nat} {s : State × Unit} (hn : b.extent m calls = some n) (hle : n ≤ capacity) :
      AttemptEnds b m root calls capacity (.ok n s)
  | failed {e : Artifact.Error} {s : State × Unit} (hopens : ∃ id, s.1.fs.openToWrite s.1.arena.path = .ok id)
      (hspace : e.isExhausted = true → b.TooSmall m calls capacity)
      (hstops : capacity ≤ b.largestCapacity → b.StopsForSpace (callsWriter root calls) → e.isExhausted = true) :
      AttemptEnds b m root calls capacity (.error e s)

private theorem header_eq {header : Offset} (hzero : s.arena.size = 0)
    (ha : b.headerCall.effect.Answers s.arena.size (.offset header)) : header = .ofPosition 0 := by
  rw [hzero] at ha
  exact Answer.offset.inj ha

/-- Completes an artifact whose metadata is stored. -/
def complete {σ : Type} (header root block : Offset) (n : Nat) : Build.Action σ Nat := do
  onArena (placeHeader header root block n)
  let size := (← get).1.arena.size
  onArena flush
  onArena trim
  pure size

theorem complete_eq_ok (h : BackedBy mp s) (hsize : headerSize ≤ s.arena.size) (root block : Offset) (n : Nat)
    (u : Unit) : ∃ s', complete (.ofPosition 0) root block n (s, u) = .ok s.arena.size (s', u) := by
  obtain ⟨placed, hplace, hplaced, -, hsame, -⟩ := placeHeader_eq_ok h hsize root block n
  obtain ⟨trimmed, htrim, -, -⟩ := hplaced.trim
  refine ⟨trimmed, ?_⟩
  unfold complete
  rw [bind_apply, onArena_apply, hplace]
  dsimp only
  rw [bind_apply, get_apply]
  dsimp only
  rw [bind_apply, onArena_apply, flush_apply, if_pos hplaced.isOpen]
  dsimp only
  rw [bind_apply, onArena_apply, htrim, hsame]
  rfl

/-- Once the payload is written, an attempt succeeds if there is room for the metadata. -/
private theorem ends_of_written {written : State} (hw : BackedBy mp written) (hsize : headerSize ≤ written.arena.size)
    (hend : b.extent m calls = (metadataCall m).effect.stop? written.arena.size) (o : Offset) :
    AttemptEnds b m root calls mp.length
      ((onArena (pushAll .byte (m.encode.map fun byte => [byte])) >>= fun block =>
        complete (.ofPosition 0) o block m.encode.length) (written, ())) := by
  rw [bind_apply]
  rcases onArena_cases (c := metadataCall m) rfl hw (inside_metadataCall m) () with
    ⟨block, stored, hstore, -, hstored⟩ | ⟨e, hstore, hrun, hr⟩
  · have hle := Effect.le_of_stop? hstored.stop
    obtain ⟨trimmed, hcomplete⟩ :=
      complete_eq_ok hstored.backed (Nat.le_trans hsize hle) o block m.encode.length ()
    rw [hstore]
    dsimp only
    rw [hcomplete]
    exact .done (hend.trans hstored.stop) hstored.backed.size_le
  · rw [hstore]
    refine .failed ⟨_, hw.opens⟩ (fun he n hn => hr he n (hend ▸ hn)) fun _ _ => ?_
    exact Call.exhausted_of_sound hw (inside_metadataCall m) (sound_metadataCall m _) hrun

/-- Behind a header, an attempt ends where the calls fail, or goes on with the metadata. -/
private theorem ends_of_pushed {pushed : State} (hcreate : create mp.length s = .ok () created)
    (hpush : push headerLayout (Header.ofKind b.payloadKind).encode created = .ok (.ofPosition 0) pushed)
    (hp : BackedBy mp pushed) (hsize : pushed.arena.size = headerSize) (hc : ∀ c ∈ calls, c.Inside) :
    AttemptEnds b m root calls mp.length
      (bind (m := Build.Action Unit) (callsWriter root calls) (fun o =>
        onArena (pushAll .byte (m.encode.map fun byte => [byte])) >>= fun block =>
          complete (.ofPosition 0) o block m.encode.length) (pushed, ())) := by
  have hextent : b.extent m calls = (Arena.extent pushed.arena.size calls).bind (metadataCall m).effect.stop? := by
    rw [extent_eq, hsize]
    rfl
  rw [bind_apply, callsWriter_apply]
  rcases Script.ofCalls_cases hp hc root [] with
    ⟨o, written, hrun, hwritten, -, hend⟩ | ⟨e, failed, hrun, hfailed, -, hr⟩
  · rw [hend, Option.bind_some] at hextent
    rw [hrun]
    exact ends_of_written hwritten (hsize ▸ le_of_extent hend) hextent o
  · rw [hrun]
    refine .failed ⟨_, hfailed.opens⟩ (fun he n hn => ?_) fun hcap hstops => ?_
    · rw [hextent] at hn
      obtain ⟨k, hk, hn⟩ := Option.bind_eq_some_iff.1 hn
      exact Nat.lt_of_lt_of_le (hr he k hk) (Effect.le_of_stop? hn)
    · refine hstops mp.length hcap s created pushed (.ofPosition 0) hcreate hpush () _ (failed, ()) ?_
      rw [callsWriter_apply, hrun]

theorem attempt_ends (hcreate : create capacity s = .ok () created) (hc : ∀ c ∈ calls, c.Inside) :
    AttemptEnds b m root calls capacity (attempt b m (callsWriter root calls) capacity (s, ())) := by
  obtain ⟨mp, hcreated, rfl, hzero⟩ := BackedBy.of_create hcreate
  unfold attempt
  rw [bind_apply, onArena_apply, hcreate]
  dsimp only
  rw [bind_apply]
  rcases onArena_cases (c := b.headerCall) rfl hcreated b.inside_headerCall () with
    ⟨header, pushed, hpush, ha, hpushed⟩ | ⟨e, hpush, hrun, hr⟩
  · obtain rfl := header_eq hzero ha
    rw [hpush]
    exact ends_of_pushed hcreate (onArena_eq_ok.1 hpush).1 hpushed.backed (size_pushed hzero hpushed) hc
  · rw [hpush]
    refine .failed ⟨_, hcreated.opens⟩ (fun he n hn => ?_) fun _ _ => ?_
    · rw [extent_eq, ← hzero] at hn
      obtain ⟨k, hk, hn⟩ := Option.bind_eq_some_iff.1 hn
      obtain ⟨k', hk', hn⟩ := Option.bind_eq_some_iff.1 hn
      have := hr he k hk
      have := le_of_extent hk'
      have := Effect.le_of_stop? hn
      omega
    · exact Call.exhausted_of_sound hcreated b.inside_headerCall (b.sound_headerCall _) hrun

theorem attempt_done (hcreate : create capacity s = .ok () created) (hc : ∀ c ∈ calls, c.Inside) {s' : State × Unit}
    (ha : attempt b m (callsWriter root calls) capacity (s, ()) = .ok size s') :
    b.extent m calls = some size ∧ size ≤ capacity := by
  have hends : AttemptEnds b m root calls capacity (attempt b m (callsWriter root calls) capacity (s, ())) :=
    attempt_ends hcreate hc
  rw [ha] at hends
  cases hends with
  | done hn hle => exact ⟨hn, hle⟩

theorem attempt_failed (hcreate : create capacity s = .ok () created) (hc : ∀ c ∈ calls, c.Inside)
    {e : Artifact.Error} {s' : State × Unit}
    (ha : attempt b m (callsWriter root calls) capacity (s, ()) = .error e s') :
    (∃ id, s'.1.fs.openToWrite s'.1.arena.path = .ok id) ∧ (e.isExhausted = true → b.TooSmall m calls capacity) ∧
      (capacity ≤ b.largestCapacity → b.StopsForSpace (callsWriter root calls) → e.isExhausted = true) := by
  have hends : AttemptEnds b m root calls capacity (attempt b m (callsWriter root calls) capacity (s, ())) :=
    attempt_ends hcreate hc
  rw [ha] at hends
  cases hends with
  | failed hopens hspace hstops => exact ⟨hopens, hspace, hstops⟩

private theorem allocated_eq_nil {s : State} (h : BackedBy mp s) (hzero : s.arena.size = 0) : s.allocated = [] := by
  apply List.eq_nil_of_length_eq_zero
  rw [h.length_allocated, hzero]

/-- Attempts that succeed make the same file of the same calls. -/
theorem attempt_congr (hk : b'.payloadKind = b.payloadKind) (hc : ∀ c ∈ calls, c.Inside) {s s' t t' : State × Unit}
    (h : attempt b m (callsWriter root calls) capacity s = .ok size s')
    (h' : attempt b' m (callsWriter root calls) capacity' t = .ok size' t') :
    ∃ bytes, s'.1.fs.read s'.1.arena.path = .ok bytes ∧ t'.1.fs.read t'.1.arena.path = .ok bytes := by
  have hcall : b'.headerCall = b.headerCall := by unfold headerCall; rw [hk]
  obtain ⟨created, header, pushed, o, written, block, stored, placed, hcreate, hpush, hw, hstore, hplace, rfl, htrim,
    -⟩ := attempt_eq_ok h
  obtain ⟨created', header', pushed', o', written', block', stored', placed', hcreate', hpush', hw', hstore', hplace',
    rfl, htrim', -⟩ := attempt_eq_ok h'
  obtain ⟨mp, hcreated, -, hzero⟩ := BackedBy.of_create hcreate
  obtain ⟨mp', hcreated', -, hzero'⟩ := BackedBy.of_create hcreate'
  have hempty : created.allocated = created'.allocated := by
    rw [allocated_eq_nil hcreated hzero, allocated_eq_nil hcreated' hzero']
  -- the header, the calls and the metadata, one after the other
  have hrun : b.headerCall.run created = .ok (.offset header) pushed := bind_pure_eq_ok.2 ⟨_, hpush, rfl⟩
  have hrun' : b.headerCall.run created' = .ok (.offset header') pushed' := by
    rw [← hcall]
    exact bind_pure_eq_ok.2 ⟨_, hpush', rfl⟩
  obtain ⟨heq, hpushed, hpushed', hsame⟩ :=
    Call.run_congr hcreated hcreated' hempty b.inside_headerCall hrun hrun'
  obtain rfl := Answer.offset.inj heq
  obtain rfl := header_eq hzero (Call.done_of_ok hcreated b.inside_headerCall hrun).1
  obtain ⟨rfl, hwritten, hwritten', hsame⟩ :=
    Script.ofCalls_congr hpushed hpushed' hsame hc (writer_eq_ok hw) (writer_eq_ok hw')
  obtain ⟨heq, hstored, hstored', hsame⟩ :=
    Call.run_congr (c := metadataCall m) hwritten hwritten' hsame (inside_metadataCall m)
      (bind_pure_eq_ok.2 ⟨_, hstore, rfl⟩) (bind_pure_eq_ok.2 ⟨_, hstore', rfl⟩)
  obtain rfl := Answer.offset.inj heq
  obtain ⟨hplaced, hall⟩ := placeHeader_done hstored hplace
  obtain ⟨hplaced', hall'⟩ := placeHeader_done hstored' hplace'
  obtain ⟨s₁, hs₁, hpath, hread⟩ := hplaced.trim
  obtain ⟨t₁, ht₁, hpath', hread'⟩ := hplaced'.trim
  obtain rfl : s₁ = s'.1 := by rw [hs₁] at htrim; cases htrim; rfl
  obtain rfl : t₁ = t'.1 := by rw [ht₁] at htrim'; cases htrim'; rfl
  refine ⟨placed.allocated, hpath ▸ hread, ?_⟩
  rw [hpath', hread', hall, hall', hsame]

end Attempts

end Builder

end Bindery
