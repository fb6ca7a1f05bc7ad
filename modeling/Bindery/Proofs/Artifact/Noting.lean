import Bindery.Proofs.Arena.Separation
import Bindery.Proofs.Artifact.Script

/-!
# Writers that note what they store

A script can note, in the state it leaves, the root that it answers and the ledger of what it stored
(`Script.noting`).  The noting changes nothing else: a build with the noting writer is the build with the writer
itself, the notes left out (`build_noting`).  A script that allocates, and writes in its own blocks alone
(`Script.Confined`), leaves an arena that holds what it noted behind what the arena held before
(`Script.represents_noting`).
-/

namespace Bindery

open Steps

/-- What a script notes of a run. -/
structure Script.Note where
  root : Arena.Offset
  ledger : Arena.Ledger
  deriving DecidableEq

namespace Script

variable {σ : Type}

/-- A script that leaves its root and the ledger of what it stored beside its state. -/
def noting : Script σ → Arena.Ledger → Script (σ × Note)
  | finish (.ok root) u, l => finish (.ok root) (u, ⟨root, l⟩)
  | finish (.error e) u, l => finish (.error e) (u, ⟨.null, l⟩)
  | call c next, l => call c fun a => (next a).noting (l.record c a)

/-- Whatever its calls answer, a script allocates, reads, and writes in blocks that it allocated itself. -/
def Confined : Script σ → Arena.Ledger → Prop
  | finish _ _, _ => True
  | call c next, l => c.AllowedBy l ∧ ∀ a, (next a).Confined (l.record c a)

/-- The writer that runs the script of its state and notes what the script stores. -/
def notingWriter (program : σ → Script σ) : Writer (σ × Note) := writer fun u => (program u.1).noting []

theorem run_noting (t : Script σ) (l : Arena.Ledger) (s : Arena.State) :
    t.run s = (((t.noting l).run s).1, ((t.noting l).run s).2.1, ((t.noting l).run s).2.2.1) := by
  induction t generalizing l s with
  | finish result u => cases result <;> rfl
  | call c next ih => exact ih _ _ _

theorem root_noting (t : Script σ) (l : Arena.Ledger) (s : Arena.State) {root : Arena.Offset}
    (h : ((t.noting l).run s).1 = .ok root) : ((t.noting l).run s).2.2.2.root = root := by
  induction t generalizing l s with
  | finish result u =>
    cases result with
    | ok root' => cases h; rfl
    | error e => cases h
  | call c next ih => exact ih _ _ _ h

end Script

/-! ### Behind other blocks -/

section Behind

variable {l pre : Arena.Ledger} {c : Arena.Call}

private theorem allowedBy_append (ha : c.AllowedBy l) : c.AllowedBy (pre ++ l) := by
  cases c with
  | write layout o value =>
    obtain ⟨hlen, b, hb, hc⟩ := ha
    exact ⟨hlen, b, List.mem_append_right _ hb, hc⟩
  | writeAll layout o values =>
    obtain ⟨hlen, b, hb, hc⟩ := ha
    exact ⟨hlen, b, List.mem_append_right _ hb, hc⟩
  | _ => exact ha

private theorem map_overwrite_append (hp : (pre ++ l).Pairwise fun a b => a.stop ≤ b.start) {o : Arena.Offset}
    {len : Nat} (hb : ∃ b ∈ l, b.Covers o len) (bytes : List UInt8) :
    (pre ++ l).map (·.overwrite o bytes) = pre ++ l.map (·.overwrite o bytes) := by
  obtain ⟨b, hb, hc⟩ := hb
  have hpre : ∀ a ∈ pre, a.stop ≤ o.position := fun a ha =>
    Nat.le_trans ((List.pairwise_append.1 hp).2.2 a ha b hb) hc.1
  rw [List.map_append, Arena.map_overwrite_of_stop_le hpre]

private theorem record_append (hp : (pre ++ l).Pairwise fun a b => a.stop ≤ b.start) (ha : c.AllowedBy l)
    (a : Except Arena.Error Arena.Answer) : (pre ++ l).record c a = pre ++ l.record c a := by
  rcases a with e | a
  · cases c <;> rfl
  -- a new block comes behind the others, and a write falls behind those in front
  cases c with
  | write layout o value => cases a <;> first | exact map_overwrite_append hp ha.2 _ | rfl
  | writeAll layout o values => cases a <;> first | exact map_overwrite_append hp ha.2 _ | rfl
  | allocate _ _ | pushAll _ _ | push _ _ | pushText _ => cases a <;> first | exact List.append_assoc _ _ _ | rfl
  | _ => rfl

/-- What a confined script notes is what it leaves in the arena. -/
theorem Script.represents_noting {σ : Type} {m : Arena.Mapping} (t : Script σ) (hc : t.Confined l) (s : Arena.State)
    (h : (pre ++ l).Represents m s) :
    (pre ++ ((t.noting l).run s).2.2.2.ledger).Represents m ((t.noting l).run s).2.1 := by
  induction t generalizing l s with
  | finish result u => cases result <;> exact h
  | call c next ih =>
    have hs := h.step (allowedBy_append hc.1)
    rw [record_append h.apart hc.1] at hs
    exact ih _ (hc.2 _) _ hs

end Behind

/-! ### Builds -/

namespace Builder

open Build

variable {σ τ α β : Type} {π : τ → σ}

def forget {ε : Type} (π : τ → σ) : EStateM.Result ε (Arena.State × τ) α → EStateM.Result ε (Arena.State × σ) α
  | .ok a (s, v) => .ok a (s, π v)
  | .error e (s, v) => .error e (s, π v)

/-- A step does what another one does, and carries more along. -/
def Follows (π : τ → σ) (x : Build.Action τ α) (y : Build.Action σ α) : Prop :=
  ∀ s v, y (s, π v) = forget π (x (s, v))

private theorem Follows.bind {x : Build.Action τ α} {y : Build.Action σ α} {f : α → Build.Action τ β}
    {g : α → Build.Action σ β} (hx : Follows π x y) (hf : ∀ a, Follows π (f a) (g a)) :
    Follows π (x >>= f) (y >>= g) := by
  intro s v
  rw [bind_apply, bind_apply, hx]
  rcases x (s, v) with ⟨a, s', v'⟩ | ⟨e, s', v'⟩
  · exact hf a s' v'
  · rfl

private theorem follows_onArena (π : τ → σ) (call : Arena.Action α) : Follows π (onArena call) (onArena call) := by
  intro s v
  rw [onArena_apply, onArena_apply]
  cases call s <;> rfl

private theorem attempt_follows (b : Builder) (m : Metadata) {x : Writer τ} {y : Writer σ} (h : Follows π x y)
    (capacity : Nat) : Follows π (attempt b m x capacity) (attempt b m y capacity) := by
  refine (follows_onArena π _).bind fun _ => (follows_onArena π _).bind fun header => h.bind fun root => ?_
  refine (follows_onArena π _).bind fun block => (follows_onArena π _).bind fun _ => ?_
  intro s v
  exact ((follows_onArena π Arena.flush).bind fun _ => (follows_onArena π Arena.trim).bind fun _ _ _ => rfl) s v

private theorem attempts_follows (b : Builder) (m : Metadata) {x : Writer τ} {y : Writer σ} (h : Follows π x y)
    (capacity : Nat) (hc : 1 ≤ capacity) (before : Nat) (s : Arena.State × τ) :
    b.attempts m y capacity hc before (s.1, π s.2) =
      ((b.attempts m x capacity hc before s).1, (b.attempts m x capacity hc before s).2.1,
        π (b.attempts m x capacity hc before s).2.2) := by
  fun_induction b.attempts m x capacity hc before s with
  | case1 capacity hc before s size s' hs =>
    have hy := attempt_follows b m h capacity s.1 s.2
    rw [attempts, hy, hs]
    rfl
  | case2 capacity hc before s e s' hs hcond hlt ih =>
    have hy := attempt_follows b m h capacity s.1 s.2
    rw [attempts, hy, hs]
    simp only [forget, dif_pos hcond]
    exact ih
  | case3 capacity hc before s e s' hs hcond t =>
    have hy := attempt_follows b m h capacity s.1 s.2
    rw [attempts, hy, hs]
    simp only [forget, dif_neg hcond]
    have hr := follows_onArena π Arena.remove s'.1 s'.2
    simp only [t]
    rw [hr]
    cases onArena Arena.remove s' <;> rfl

theorem build_follows (b : Builder) (d : Path) (m : Metadata) {x : Writer τ} {y : Writer σ} (h : Follows π x y)
    (fs : FileSystem) (v : τ) :
    b.build d m y fs (π v) =
      ((b.build d m x fs v).1, (b.build d m x fs v).2.1, π (b.build d m x fs v).2.2) := by
  unfold build
  rcases makeParent fs d with ⟨e | _, fs₁⟩
  · rfl
  dsimp only
  have ha := attempts_follows b m h b.firstCapacity b.one_le_firstCapacity 0 (⟨fs₁, .closed (stagingPath d)⟩, v)
  dsimp only at ha
  rw [ha]
  rcases b.attempts m x b.firstCapacity b.one_le_firstCapacity 0 (⟨fs₁, .closed (stagingPath d)⟩, v) with
    ⟨e | ⟨size, n⟩, s, v'⟩
  · rfl
  · dsimp only
    cases s.fs.rename (stagingPath d) d <;> rfl

private theorem writer_follows (program : σ → Script σ) :
    Follows Prod.fst (Script.notingWriter program) (Script.writer program) := by
  intro s v
  unfold Script.notingWriter Script.writer
  dsimp only
  rw [Script.run_noting (program v.1) [] s]
  rcases ((program v.1).noting []).run s with ⟨e | root, s', v'⟩ <;> rfl

/-- Noting changes nothing in a build. -/
theorem build_noting (b : Builder) (d : Path) (m : Metadata) (program : σ → Script σ) (fs : FileSystem)
    (v : σ × Script.Note) :
    b.build d m (Script.writer program) fs v.1 =
      ((b.build d m (Script.notingWriter program) fs v).1, (b.build d m (Script.notingWriter program) fs v).2.1,
        (b.build d m (Script.notingWriter program) fs v).2.2.1) :=
  build_follows b d m (writer_follows program) fs v

end Builder

end Bindery
