import Bindery.Proofs.Artifact.CallLists
import Bindery.Proofs.Artifact.Destination
import Mathlib.Order.Bounds.Basic
import Mathlib.Tactic.IntervalCases

/-!
# The capacities of a build's attempts

The attempts of a build have the capacities `Builder.capacityAt`, one after the other: the first one, and every
further one greater by the growth factor, up to the largest (`Builder.nextCapacity_capacityAt`).  For a writer that
makes a list of calls and fails for want of space alone, the extent of the calls decides which of these attempts
succeeds, and whether any does (`Builder.traced_schedule`), and what is written depends neither on the capacities nor
on the attempts that failed (`Builder.calls_decide_build`).
-/

namespace Bindery.Builder

open Build Steps FileSystem

variable {σ : Type} {b : Builder} {m : Metadata}

/-! ### Capacities -/

/-- The capacity of an attempt, the first of which is number 0. -/
def capacityAt (b : Builder) (k : Nat) : Nat := min (b.firstCapacity * b.growthFactor ^ k) b.largestCapacity

theorem capacityAt_zero (b : Builder) : b.capacityAt 0 = b.firstCapacity := by
  unfold capacityAt firstCapacity largestCapacity
  rw [Nat.pow_zero, Nat.mul_one]
  omega

theorem capacityAt_le (b : Builder) (k : Nat) : b.capacityAt k ≤ b.largestCapacity := Nat.min_le_right _ _

theorem capacityAt_of_lt {k : Nat} (h : b.capacityAt k < b.maxCapacity) :
    b.capacityAt k = b.firstCapacity * b.growthFactor ^ k := by
  unfold capacityAt largestCapacity at *
  omega

theorem one_le_firstCapacity_mul_pow (b : Builder) (k : Nat) : 1 ≤ b.firstCapacity * b.growthFactor ^ k := by
  have hpow : 0 < b.growthFactor ^ k := Nat.pow_pos (Nat.lt_of_lt_of_le (by decide) b.two_le_growthFactor)
  exact Nat.mul_pos b.one_le_firstCapacity hpow

/-- While the largest capacity is not reached, the next one is greater by the growth factor. -/
theorem nextCapacity_capacityAt {k : Nat} (h : b.capacityAt k < b.maxCapacity) :
    b.nextCapacity (b.capacityAt k) = b.capacityAt (k + 1) := by
  have hk := capacityAt_of_lt h
  have hpos := b.one_le_firstCapacity_mul_pow k
  unfold nextCapacity
  rw [hk] at h ⊢
  unfold capacityAt largestCapacity
  rw [Nat.pow_succ, ← Nat.mul_assoc, show max 1 b.maxCapacity = b.maxCapacity by omega]

theorem capacityAt_eq_largest {k : Nat} (hpos : 1 ≤ b.capacityAt k) (h : ¬ b.capacityAt k < b.maxCapacity) :
    b.capacityAt k = b.largestCapacity := by
  have := b.capacityAt_le k
  unfold largestCapacity at this ⊢
  omega

/-! ### Attempts, retained -/

/-- An attempt: its capacity, and the state in which it begins. -/
structure Round (σ : Type) where
  capacity : Nat
  start : Arena.State × σ

/-- What `attempts` does, with the attempts that were made. -/
def traced (b : Builder) (m : Metadata) (w : Writer σ) (capacity : Nat) (h : 1 ≤ capacity) (before : Nat)
    (s : Arena.State × σ) : List (Round σ) × Except Artifact.Error (Nat × Nat) × (Arena.State × σ) :=
  match attempt b m w capacity s with
  | .ok size s' => ([⟨capacity, s⟩], .ok (size, before + 1), s')
  | .error e s' =>
    if hc : e.isExhausted = true ∧ capacity < b.maxCapacity then
      have := b.lt_nextCapacity h hc.2
      let rest := b.traced m w (b.nextCapacity capacity) (by omega) (before + 1) s'
      (⟨capacity, s⟩ :: rest.1, rest.2)
    else
      let cleaned :=
        match onArena (σ := σ) Arena.remove s' with
        | .ok _ s => s
        | .error _ s => s
      ([⟨capacity, s⟩], .error (if e.isExhausted then .capacityLimit capacity else e), cleaned)
termination_by b.maxCapacity - capacity

theorem snd_traced (b : Builder) (m : Metadata) (w : Writer σ) (capacity : Nat) (h : 1 ≤ capacity) (before : Nat)
    (s : Arena.State × σ) : (b.traced m w capacity h before s).2 = b.attempts m w capacity h before s := by
  fun_induction b.traced m w capacity h before s with
  | case1 capacity h before s size s' ha =>
    rw [attempts, ha]
  | case2 capacity h before s e s' ha hc hlt rest ih =>
    rw [attempts, ha]
    dsimp only
    rw [dif_pos hc]
    exact ih
  | case3 capacity h before s e s' ha hc t =>
    rw [attempts, ha]
    refine Eq.trans ?_ (dif_neg hc).symm
    rfl

/-! ### The schedule -/

section Schedule

open Arena

variable {root : List Answer → Offset} {calls : List Call}

/-- Attempts from one number on go on to another one, as long as the capacities are too small and not the largest.
The last attempt succeeds, or its capacity is the largest and too small, too. -/
structure Scheduled (b : Builder) (m : Metadata) (calls : List Call) (first last : Nat) (tried : List Nat)
    (result : Except Artifact.Error (Nat × Nat)) : Prop where
  first_le : first ≤ last
  tried_eq : tried = (List.range' first (last + 1 - first)).map b.capacityAt
  tooSmall : ∀ k, first ≤ k → k < last → b.TooSmall m calls (b.capacityAt k) ∧ b.capacityAt k < b.largestCapacity
  ends : (∃ n, b.extent m calls = some n ∧ n ≤ b.capacityAt last ∧ result = .ok (n, last + 1)) ∨
    (b.TooSmall m calls b.largestCapacity ∧ b.capacityAt last = b.largestCapacity ∧
      result = .error (.capacityLimit b.largestCapacity))

theorem Scheduled.cons {first last : Nat} {tried : List Nat} {result : Except Artifact.Error (Nat × Nat)}
    (h : Scheduled b m calls (first + 1) last tried result) (hsmall : b.TooSmall m calls (b.capacityAt first))
    (hlt : b.capacityAt first < b.largestCapacity) :
    Scheduled b m calls first last (b.capacityAt first :: tried) result where
  first_le := Nat.le_of_succ_le h.first_le
  tried_eq := by
    have hle := h.first_le
    rw [h.tried_eq, show last + 1 - first = last + 1 - (first + 1) + 1 by omega, List.range'_succ, List.map_cons]
  tooSmall k hk hkl := by
    rcases Nat.eq_or_lt_of_le hk with rfl | hk
    · exact ⟨hsmall, hlt⟩
    · exact h.tooSmall k hk hkl
  ends := h.ends

theorem traced_schedule (hc : ∀ c ∈ calls, c.Inside) (hstops : b.StopsForSpace (callsWriter root calls))
    {capacity first : Nat} (h : 1 ≤ capacity) (hcap : capacity = b.capacityAt first) {s : Arena.State × Unit}
    (hcreate : ∃ created, create capacity s.1 = .ok () created) :
    ∃ last, Scheduled b m calls first last
      ((b.traced m (callsWriter root calls) capacity h first s).1.map Round.capacity)
      (b.traced m (callsWriter root calls) capacity h first s).2.1 := by
  obtain ⟨created, hcreate⟩ := hcreate
  fun_induction b.traced m (callsWriter root calls) capacity h first s generalizing created with
  | case1 capacity h first s size s' ha =>
    obtain ⟨hn, hle⟩ := attempt_done hcreate hc ha
    refine ⟨first, Nat.le_refl _, ?_, fun k hk hlt => ?_, .inl ⟨size, hn, hcap ▸ hle, rfl⟩⟩
    · rw [Nat.add_sub_cancel_left, hcap]
      rfl
    · exact absurd hk (Nat.not_le_of_lt hlt)
  | case2 capacity h first s e s' ha hc' hlt rest ih =>
    obtain ⟨⟨id, hid⟩, hspace, -⟩ := attempt_failed hcreate hc ha
    subst hcap
    -- the file of the failed attempt is there, so that the next one can begin
    have hmax : b.nextCapacity (b.capacityAt first) ≤ Arena.maxCapacity :=
      Nat.le_trans (Nat.min_le_right _ _) b.maxCapacity_le
    obtain ⟨next, hnext⟩ := BackedBy.exists_create hid (Nat.le_trans h (Nat.le_of_lt hlt)) hmax
    obtain ⟨last, hlast⟩ := ih (nextCapacity_capacityAt hc'.2) next hnext
    refine ⟨last, hlast.cons (hspace hc'.1) ?_⟩
    exact Nat.lt_of_lt_of_le hc'.2 (Nat.le_max_right _ _)
  | case3 capacity h first s e s' ha hc' t =>
    obtain ⟨-, hspace, hexhausted⟩ := attempt_failed hcreate hc ha
    subst hcap
    have he : e.isExhausted = true := hexhausted (b.capacityAt_le first) hstops
    have hlargest : b.capacityAt first = b.largestCapacity :=
      capacityAt_eq_largest h fun hlt => hc' ⟨he, hlt⟩
    refine ⟨first, Nat.le_refl _, ?_, fun k hk hlt => ?_, .inr ⟨hlargest ▸ hspace he, hlargest, ?_⟩⟩
    · rw [Nat.add_sub_cancel_left]
      rfl
    · exact absurd hk (Nat.not_le_of_lt hlt)
    · rw [if_pos he, hlargest]

/-! ### Builds -/

/-- What the attempts of a build do, with the attempts that were made. -/
def buildTrace (b : Builder) (d : Path) (m : Metadata) (w : Writer σ) (fs : FileSystem) (u : σ) :
    List (Round σ) × Except Artifact.Error (Nat × Nat) × (Arena.State × σ) :=
  b.traced m w b.firstCapacity b.one_le_firstCapacity 0 (⟨(makeParent fs d).2, .closed (stagingPath d)⟩, u)

/-- The attempts of a build. -/
def buildRounds (b : Builder) (d : Path) (m : Metadata) (w : Writer σ) (fs : FileSystem) (u : σ) : List (Round σ) :=
  (b.buildTrace d m w fs u).1

/-- What the attempts of a build do, with the capacities of these. -/
def tracedBuild (b : Builder) (d : Path) (m : Metadata) (w : Writer σ) (fs : FileSystem) (u : σ) :
    List Nat × Except Artifact.Error (Nat × Nat) × (Arena.State × σ) :=
  ((b.buildRounds d m w fs u).map Round.capacity, (b.buildTrace d m w fs u).2)

theorem snd_tracedBuild (b : Builder) (d : Path) (m : Metadata) (w : Writer σ) (fs : FileSystem) (u : σ) :
    (b.tracedBuild d m w fs u).2 = b.staged d m w (makeParent fs d).2 u := b.snd_traced m w _ _ 0 _

/-- The directories above a destination can be made, and the staging file with the first capacity. -/
def CanBegin (b : Builder) (d : Path) (fs : FileSystem) : Prop :=
  (makeParent fs d).1 = .ok () ∧
    ∃ created, create b.firstCapacity ⟨(makeParent fs d).2, .closed (stagingPath d)⟩ = .ok () created

section Traced

variable {d : Path} {fs fs' : FileSystem} {w : Writer σ} {u : σ}

theorem build_of_traced_ok (h : (makeParent fs d).1 = .ok ()) {size attempts : Nat}
    (ht : (b.tracedBuild d m w fs u).2.1 = .ok (size, attempts))
    (hr : (b.tracedBuild d m w fs u).2.2.1.fs.rename (stagingPath d) d = .ok fs') :
    b.build d m w fs u = (.ok ⟨d, size, attempts⟩, fs', (b.tracedBuild d m w fs u).2.2.2) := by
  rw [snd_tracedBuild] at ht hr ⊢
  rw [build_eq]
  rcases hp : makeParent fs d with ⟨e | _, fs₁⟩ <;> rw [hp] at h ht hr
  · cases h
  rcases hst : b.staged d m w fs₁ u with ⟨e | ⟨size', attempts'⟩, s, u'⟩ <;> rw [hst] at ht hr <;> cases ht
  dsimp only at hr ⊢
  rw [hst]
  dsimp only
  rw [hr]

theorem build_of_traced_error (h : (makeParent fs d).1 = .ok ()) {e : Artifact.Error}
    (ht : (b.tracedBuild d m w fs u).2.1 = .error e) : (b.build d m w fs u).1 = .error e := by
  rw [snd_tracedBuild] at ht
  rw [build_eq]
  rcases hp : makeParent fs d with ⟨e | _, fs₁⟩ <;> rw [hp] at h ht
  · cases h
  rcases hst : b.staged d m w fs₁ u with ⟨e | ⟨size', attempts'⟩, s, u'⟩ <;> rw [hst] at ht <;> cases ht
  dsimp only
  rw [hst]

end Traced

theorem tracedBuild_schedule {d : Path} {fs : FileSystem} (hc : ∀ c ∈ calls, c.Inside)
    (hstops : b.StopsForSpace (callsWriter root calls)) (hbegin : b.CanBegin d fs) :
    ∃ last, Scheduled b m calls 0 last (b.tracedBuild d m (callsWriter root calls) fs ()).1
      (b.tracedBuild d m (callsWriter root calls) fs ()).2.1 :=
  traced_schedule hc hstops _ b.capacityAt_zero.symm hbegin.2

theorem Scheduled.tried_from_zero {last : Nat} {tried : List Nat} {result : Except Artifact.Error (Nat × Nat)}
    (h : Scheduled b m calls 0 last tried result) : tried = (List.range (last + 1)).map b.capacityAt := by
  rw [h.tried_eq, Nat.sub_zero, List.range_eq_range']

/-- If an artifact fits at the largest capacity, the first attempt that it fits is the last. -/
theorem Scheduled.of_fits {last n : Nat} {tried : List Nat} {result : Except Artifact.Error (Nat × Nat)}
    (h : Scheduled b m calls 0 last tried result) (hn : b.extent m calls = some n) (hle : n ≤ b.largestCapacity) :
    IsLeast {k | n ≤ b.capacityAt k} last ∧ result = .ok (n, last + 1) := by
  rcases h.ends with ⟨n', hn', hfits, hresult⟩ | ⟨hsmall, -, -⟩
  · obtain rfl : n' = n := Option.some.inj (hn'.symm.trans hn)
    refine ⟨⟨hfits, fun k hk => ?_⟩, hresult⟩
    by_contra hlt
    have := (h.tooSmall k (Nat.zero_le k) (Nat.lt_of_not_le hlt)).1 n' hn
    exact absurd hk (Nat.not_le_of_lt this)
  · exact absurd hle (Nat.not_le_of_lt (hsmall n hn))

/-- If it does not fit there, either, the first attempt with the largest capacity is the last. -/
theorem Scheduled.of_tooSmall {last : Nat} {tried : List Nat} {result : Except Artifact.Error (Nat × Nat)}
    (h : Scheduled b m calls 0 last tried result) (hsmall : b.TooSmall m calls b.largestCapacity) :
    IsLeast {k | b.capacityAt k = b.largestCapacity} last ∧ result = .error (.capacityLimit b.largestCapacity) := by
  rcases h.ends with ⟨n, hn, hfits, -⟩ | ⟨-, hlargest, hresult⟩
  · exact absurd (Nat.le_trans hfits (b.capacityAt_le last)) (Nat.not_le_of_lt (hsmall n hn))
  · refine ⟨⟨hlargest, fun k hk => ?_⟩, hresult⟩
    by_contra hlt
    exact absurd hk (Nat.ne_of_lt (h.tooSmall k (Nat.zero_le k) (Nat.lt_of_not_le hlt)).2)

/-- The file of a build that succeeds is the one that its last attempt has left. -/
theorem attempt_of_build {program : σ → Script σ} {d : Path} {fs fs' : FileSystem} {u u' : σ} {outcome : Outcome}
    (h : b.build d m (Script.writer program) fs u = (.ok outcome, fs', u')) :
    ∃ capacity s s', attempt b m (Script.writer program) capacity s = .ok outcome.size s' ∧
      fs'.read d = s'.1.fs.read s'.1.arena.path := by
  obtain ⟨s, id, src, dst, hstaged, hsrc, hdst, hfile, -⟩ := (Replaced.of_build h).moved
  obtain ⟨capacity, s₁, -, hlast⟩ := attempts_eq_ok (P := fun _ => True) (fun _ _ _ _ _ _ => trivial) _ trivial hstaged
  obtain ⟨r₀, hr₀⟩ := exists_route (makeParent fs d).2 (stagingPath d)
  refine ⟨capacity, s₁, _, hlast, ?_⟩
  dsimp only
  rw [(staged_changes hstaged hr₀).1, read_eq_ok.2 ⟨dst, id, hdst, rfl⟩, read_eq_ok.2 ⟨src, id, hsrc, rfl⟩, hfile]

/-- What comes of a build whose payload is a list of calls that only a want of space can stop is decided by the extent
of the calls, and what it writes by the calls. -/
theorem calls_decide_build (m : Metadata) (root : List Answer → Offset) (calls : List Call)
    (hc : ∀ c ∈ calls, c.Inside) :
    (∀ (b : Builder) (d : Path) (fs : FileSystem),
      b.StopsForSpace (callsWriter root calls) → b.CanBegin d fs →
        (∀ n, b.extent m calls = some n → n ≤ b.largestCapacity →
          ∃ k, IsLeast {k | n ≤ b.capacityAt k} k ∧
            (b.tracedBuild d m (callsWriter root calls) fs ()).1 = (List.range (k + 1)).map b.capacityAt ∧
            (b.tracedBuild d m (callsWriter root calls) fs ()).2.1 = .ok (n, k + 1) ∧
            ∀ fs', (b.tracedBuild d m (callsWriter root calls) fs ()).2.2.1.fs.rename (stagingPath d) d = .ok fs' →
              b.build d m (callsWriter root calls) fs () = (.ok ⟨d, n, k + 1⟩, fs', ())) ∧
        ((∀ n, b.extent m calls = some n → b.largestCapacity < n) →
          ∃ k, IsLeast {k | b.capacityAt k = b.largestCapacity} k ∧
            (b.tracedBuild d m (callsWriter root calls) fs ()).1 = (List.range (k + 1)).map b.capacityAt ∧
            (b.build d m (callsWriter root calls) fs ()).1 = .error (.capacityLimit b.largestCapacity))) ∧
    ∀ (b₁ b₂ : Builder) (d₁ d₂ : Path) (fs₁ fs₂ fs₁' fs₂' : FileSystem) (outcome₁ outcome₂ : Outcome),
      b₁.payloadKind = b₂.payloadKind →
      b₁.build d₁ m (callsWriter root calls) fs₁ () = (.ok outcome₁, fs₁', ()) →
      b₂.build d₂ m (callsWriter root calls) fs₂ () = (.ok outcome₂, fs₂', ()) →
        ∃ bytes, fs₁'.read d₁ = .ok bytes ∧ fs₂'.read d₂ = .ok bytes := by
  constructor
  · intro b d fs hstops hbegin
    obtain ⟨last, hs⟩ := tracedBuild_schedule (m := m) hc hstops hbegin
    constructor
    · intro n hn hle
      obtain ⟨hleast, hresult⟩ := hs.of_fits hn hle
      exact ⟨last, hleast, hs.tried_from_zero, hresult, fun fs' hr => build_of_traced_ok hbegin.1 hresult hr⟩
    · intro hsmall
      obtain ⟨hleast, hresult⟩ := hs.of_tooSmall hsmall
      exact ⟨last, hleast, hs.tried_from_zero, build_of_traced_error hbegin.1 hresult⟩
  · intro b₁ b₂ d₁ d₂ fs₁ fs₂ fs₁' fs₂' outcome₁ outcome₂ hkind h₁ h₂
    obtain ⟨_, _, s₁, ha₁, hread₁⟩ := attempt_of_build h₁
    obtain ⟨_, _, s₂, ha₂, hread₂⟩ := attempt_of_build h₂
    rw [hread₁, hread₂]
    exact attempt_congr hkind.symm hc ha₁ ha₂

/-- A text and two words, with the text as root, make an artifact of 80 bytes.  It is finished by the fourth of growing
attempts or by the first large one, with the same bytes, and does not fit in 70. -/
theorem calls_decide_build_of_eighty_bytes :
    let calls : List Call := [.pushText "ab", .allocate .word32 2, .write .word32 ⟨72⟩ [1, 2, 3, 4]]
    let w := callsWriter (fun _ => ⟨64⟩) calls
    let growing := ofSizes 16 2 4096 7
    let large := ofSizes 100 3 100 7
    let small := ofSizes 16 2 70 7
    let d := Path.ofString "a"
    let d' := Path.ofString "x/a"
    ∃ fs₁ fs₂ bytes,
      growing.build d default w (bare ⟨0⟩) () = (.ok ⟨d, 80, 4⟩, fs₁, ()) ∧
      large.build d' default w (bare ⟨0⟩) () = (.ok ⟨d', 80, 1⟩, fs₂, ()) ∧
      fs₁.read d = .ok bytes ∧ fs₂.read d' = .ok bytes ∧
      (small.build d default w (bare ⟨0⟩) ()).1 = .error (.capacityLimit 70) ∧
      (small.tracedBuild d default w (bare ⟨0⟩) ()).1 = [16, 32, 64, 70] := by
  intro calls w growing large small d d'
  have hc : ∀ c ∈ calls, c.Inside := by decide
  have hstops (b : Builder) : b.StopsForSpace w := stopsForSpace_of_soundFrom hc (by decide +kernel)
  have hbegin (b : Builder) (d : Path) (h : (makeParent (bare ⟨0⟩) d).1 = .ok ())
      (ha : answer (create b.firstCapacity ⟨(makeParent (bare ⟨0⟩) d).2, .closed (stagingPath d)⟩) = .ok ()) :
      b.CanBegin d (bare ⟨0⟩) := ⟨h, _, eq_ok_of_answer ha⟩
  obtain ⟨hdecide, hsame⟩ := calls_decide_build default (fun _ => ⟨64⟩) calls hc
  have hextent (b : Builder) (hb : b.payloadKind = 7) : b.extent default calls = some 80 := by
    unfold extent headerCall
    rw [hb]
    decide +kernel
  -- 16, 32 and 64 bytes are too few, and the fourth capacity is the first that is large enough
  obtain ⟨k₁, hk₁, -, -, hbuild₁⟩ := (hdecide growing d (bare ⟨0⟩) (hstops _)
    (hbegin _ _ (by decide +kernel) (by decide +kernel))).1 80 (hextent _ rfl) (by decide)
  obtain rfl : k₁ = 3 := hk₁.unique ⟨by decide, fun k hk => by by_contra h; interval_cases k <;> revert hk <;> decide⟩
  obtain ⟨fs₁, hrename₁, -⟩ : ∃ fs', (growing.tracedBuild d default w (bare ⟨0⟩) ()).2.2.1.fs.rename
      (stagingPath d) d = .ok fs' ∧ True := by decide +kernel
  have h₁ := hbuild₁ fs₁ hrename₁
  obtain ⟨k₂, hk₂, -, -, hbuild₂⟩ := (hdecide large d' (bare ⟨0⟩) (hstops _)
    (hbegin _ _ (by decide +kernel) (by decide +kernel))).1 80 (hextent _ rfl) (by decide)
  obtain rfl : k₂ = 0 := hk₂.unique ⟨by decide, fun k _ => Nat.zero_le k⟩
  obtain ⟨fs₂, hrename₂, -⟩ : ∃ fs', (large.tracedBuild d' default w (bare ⟨0⟩) ()).2.2.1.fs.rename
      (stagingPath d') d' = .ok fs' ∧ True := by decide +kernel
  have h₂ := hbuild₂ fs₂ hrename₂
  obtain ⟨bytes, hread₁, hread₂⟩ := hsame growing large _ _ _ _ _ _ _ _ rfl h₁ h₂
  -- 70 bytes are the largest capacity of the third builder, and too few
  obtain ⟨k₃, hk₃, htried, hlimit⟩ := (hdecide small d (bare ⟨0⟩) (hstops _)
    (hbegin _ _ (by decide +kernel) (by decide +kernel))).2 fun n hn => by
      obtain rfl := Option.some.inj (hn.symm.trans (hextent _ rfl))
      decide
  obtain rfl : k₃ = 3 := hk₃.unique ⟨by decide, fun k hk => by by_contra h; interval_cases k <;> revert hk <;> decide⟩
  exact ⟨fs₁, fs₂, bytes, h₁, h₂, hread₁, hread₂, hlimit, htried⟩

end Schedule

end Bindery.Builder
