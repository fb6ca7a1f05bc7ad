import Bindery.Artifact.Builder
import Bindery.Proofs.Arena.Reach

/-!
# Writers as scripts

A script is a program for an arena: it makes one call after the other, goes by the answers and the errors, and in
the end answers a root or fails.  Scripts with a state that lasts from one attempt to the next are the writers of
payloads (`Script.writer`).  Whatever calls a script makes, close, remove and reopen among them, it reaches the
file at the arena's path alone, and so does every attempt that runs it (`attempts_reaches`).
-/

namespace Bindery

open Steps

/-- A program for an arena, which leaves a state for the next time it is run. -/
inductive Script (σ : Type) where
  | finish (result : Except Artifact.Error Arena.Offset) (state : σ)
  | call (c : Arena.Call) (next : Except Arena.Error Arena.Answer → Script σ)

namespace Script

variable {σ : Type}

/-- Makes the calls of a script. -/
def run : Script σ → Arena.State → Except Artifact.Error Arena.Offset × Arena.State × σ
  | finish result u, s => (result, s, u)
  | call c next, s => (next (answer (c.run s))).run (left (c.run s))

/-- The writer that runs the script of its state. -/
def writer (program : σ → Script σ) : Writer σ := fun (s, u) =>
  match (program u).run s with
  | (.ok root, s, u) => .ok root (s, u)
  | (.error e, s, u) => .error e (s, u)

/-- What every call keeps, a script keeps. -/
theorem run_keeps {R : Arena.State → Arena.State → Prop} [Std.Refl R] [Trans R R R]
    (hcalls : ∀ c : Arena.Call, Keeps R c.run) (t : Script σ) (s : Arena.State) : R s (t.run s).2.1 := by
  induction t generalizing s with
  | finish result u => exact Std.Refl.refl s
  | call c next ih => exact Trans.trans (hcalls c s) (ih _ _)

theorem run_reaches {r : FileSystem.Route} (t : Script σ) (s : Arena.State) :
    Arena.Reaches r s (t.run s).2.1 := t.run_keeps Arena.Call.reaches s

end Script

namespace Builder

open Build

variable {σ : Type} {r : FileSystem.Route}

/-- `Arena.Reaches` for the steps of a build. -/
def Reaches (σ : Type) (r : FileSystem.Route) (s s' : Arena.State × σ) : Prop := Arena.Reaches r s.1 s'.1

theorem onArena_apply {α : Type} (call : Arena.Action α) (s : Arena.State × σ) :
    onArena call s =
      match call s.1 with
      | .ok a t => .ok a (t, s.2)
      | .error e t => .error (.arena e) (t, s.2) := rfl

theorem onArena_eq_ok {α : Type} {call : Arena.Action α} {s s' : Arena.State × σ} {a : α} :
    onArena call s = .ok a s' ↔ call s.1 = .ok a s'.1 ∧ s'.2 = s.2 := by
  rw [onArena_apply]
  obtain ⟨t', u'⟩ := s'
  cases call s.1 with
  | ok b t => simp; grind
  | error e t => simp

/-! ### What calls keep, attempts keep -/

/-- A relation of arenas, for the steps of a build. -/
def OnArenas (σ : Type) (R : Arena.State → Arena.State → Prop) (s s' : Arena.State × σ) : Prop := R s.1 s'.1

section Keeps

variable {α : Type} {R : Arena.State → Arena.State → Prop} {w : Writer σ}

instance [Std.Refl R] : Std.Refl (OnArenas σ R) := ⟨fun s => Std.Refl.refl (r := R) s.1⟩

instance [Trans R R R] : Trans (OnArenas σ R) (OnArenas σ R) (OnArenas σ R) :=
  ⟨fun {_ _ _} h₁ h₂ => Trans.trans (r := R) (s := R) (t := R) h₁ h₂⟩

theorem onArena_keeps {call : Arena.Action α} (h : Keeps R call) : Keeps (OnArenas σ R) (onArena call) := by
  intro s
  have := h s.1
  rw [onArena_apply]
  cases hc : call s.1 <;> rw [hc] at this <;> exact this

theorem keeps_of_run {call : Arena.Action α} {c : Arena.Call} {f : α → Arena.Answer} (hc : Keeps R c.run)
    (h : c.run = call >>= fun a => pure (f a)) : Keeps R call := by
  intro s
  have := hc s
  rw [h, bind_apply] at this
  cases hcall : call s <;> rw [hcall] at this <;> exact this

variable [Std.Refl R] [Trans R R R] (hcalls : ∀ c : Arena.Call, Keeps R c.run)
include hcalls

theorem writer_keeps (program : σ → Script σ) : Keeps (OnArenas σ R) (Script.writer program) := by
  rintro ⟨s, u⟩
  have h := (program u).run_keeps hcalls s
  unfold Script.writer
  dsimp only
  rcases hr : (program u).run s with ⟨e | root, s', u'⟩ <;> rw [hr] at h <;> exact h

theorem placeHeader_keeps (header root block : Arena.Offset) (length : Nat) :
    Keeps R (placeHeader header root block length) :=
  (Arena.keeps_look _).bind fun _ => keeps_of_run (c := .write _ _ _) (hcalls _) rfl

theorem attempt_keeps (b : Builder) (m : Metadata) (hw : Keeps (OnArenas σ R) w) (capacity : Nat) :
    Keeps (OnArenas σ R) (attempt b m w capacity) := by
  refine (onArena_keeps (keeps_of_run (hcalls (.create capacity)) rfl)).bind fun _ => ?_
  refine (onArena_keeps (keeps_of_run (hcalls (.push _ _)) rfl)).bind fun header => ?_
  refine hw.bind fun root => ?_
  refine (onArena_keeps (keeps_of_run (hcalls (.pushAll _ _)) rfl)).bind fun block => ?_
  refine (onArena_keeps (placeHeader_keeps hcalls header root block _)).bind fun _ => ?_
  refine keeps_get_bind fun s => ?_
  refine Keeps.bind (onArena_keeps (keeps_of_run (hcalls .flush) rfl)) (fun _ => ?_) s
  exact (onArena_keeps (keeps_of_run (hcalls .trim) rfl)).bind fun _ => keeps_pure _

theorem attempts_keeps (b : Builder) (m : Metadata) (hw : Keeps (OnArenas σ R) w) (capacity : Nat)
    (h : 1 ≤ capacity) (before : Nat) (s : Arena.State × σ) :
    OnArenas σ R s (b.attempts m w capacity h before s).2 := by
  fun_induction b.attempts m w capacity h before s with
  | case1 capacity h before s size s' hs => exact (attempt_keeps hcalls b m hw capacity).ok hs
  | case2 capacity h before s e s' hs hc hlt ih =>
    exact Trans.trans (s := OnArenas σ R) ((attempt_keeps hcalls b m hw capacity).error hs) ih
  | case3 capacity h before s e s' hs hc t =>
    -- the staging file is removed, and whether that succeeds is not looked at
    refine Trans.trans (s := OnArenas σ R) ((attempt_keeps hcalls b m hw capacity).error hs) ?_
    have hr := onArena_keeps (σ := σ) (keeps_of_run (hcalls .remove) rfl) s'
    have ht : t = left (onArena Arena.remove s') := by
      simp only [t]
      cases onArena Arena.remove s' <;> rfl
    exact ht ▸ hr

end Keeps

/-! ### What attempts reach -/

theorem writer_reaches (program : σ → Script σ) : Keeps (Reaches σ r) (Script.writer program) :=
  writer_keeps Arena.Call.reaches program

theorem reaches_of_run {α : Type} {call : Arena.Action α} {c : Arena.Call} {f : α → Arena.Answer}
    (h : c.run = call >>= fun a => pure (f a)) : Keeps (Arena.Reaches r) call := keeps_of_run c.reaches h

theorem placeHeader_reaches (header root block : Arena.Offset) (length : Nat) :
    Keeps (Arena.Reaches r) (placeHeader header root block length) :=
  placeHeader_keeps Arena.Call.reaches header root block length

theorem attempt_reaches (b : Builder) (m : Metadata) {w : Writer σ} (hw : Keeps (Reaches σ r) w) (capacity : Nat) :
    Keeps (Reaches σ r) (attempt b m w capacity) := attempt_keeps Arena.Call.reaches b m hw capacity

theorem attempts_reaches (b : Builder) (m : Metadata) {w : Writer σ} (hw : Keeps (Reaches σ r) w) (capacity : Nat)
    (h : 1 ≤ capacity) (before : Nat) (s : Arena.State × σ) :
    Reaches σ r s (b.attempts m w capacity h before s).2 :=
  attempts_keeps Arena.Call.reaches b m hw capacity h before s

/-! ### Attempts that succeed -/

/-- The steps of an attempt that succeeds, with the states between them. -/
theorem attempt_eq_ok {b : Builder} {m : Metadata} {w : Writer σ} {capacity size : Nat} {s s' : Arena.State × σ}
    (h : attempt b m w capacity s = .ok size s') :
    ∃ created header pushed root written block stored placed,
      Arena.create capacity s.1 = .ok () created ∧
      Arena.push Artifact.headerLayout (Artifact.Header.ofKind b.payloadKind).encode created = .ok header pushed ∧
      w (pushed, s.2) = .ok root written ∧
      Arena.pushAll .byte (m.encode.map fun byte => [byte]) written.1 = .ok block stored ∧
      placeHeader header root block m.encode.length stored = .ok () placed ∧
      size = placed.arena.size ∧ Arena.trim placed = .ok () s'.1 ∧ s'.2 = written.2 := by
  unfold attempt at h
  simp only [bind_eq_ok, onArena_eq_ok, get_apply, pure_apply, EStateM.Result.ok.injEq] at h
  obtain ⟨_, created, ⟨hcreate, hu₁⟩, header, pushed, ⟨hpush, hu₂⟩, root, written, hw, block, stored, ⟨hstore, hu₃⟩,
    _, placed, ⟨hplace, hu₄⟩, _, _, ⟨rfl, rfl⟩, _, flushed, ⟨hflush, hu₅⟩, _, trimmed, ⟨htrim, hu₆⟩, rfl, rfl⟩ := h
  -- a flush leaves the state alone
  have hsame : flushed.1 = placed.1 := by
    rw [Arena.flush_apply] at hflush
    split at hflush
    · injection hflush with _ hflush
      exact hflush.symm
    · cases hflush
  have hpushed : pushed = (pushed.1, s.2) := by rw [← hu₁, ← hu₂]
  refine ⟨created.1, header, pushed.1, root, written, block, stored.1, placed.1, hcreate, hpush, ?_, hstore, hplace,
    rfl, ?_, ?_⟩
  · rw [← hpushed]; exact hw
  · rw [← hsame]; exact htrim
  · rw [hu₆, hu₅, hu₄, hu₃]

/-- Attempts that succeed end with one that does, which begins in a state that failed attempts lead to. -/
theorem attempts_eq_ok {b : Builder} {m : Metadata} {w : Writer σ} {P : Arena.State × σ → Prop}
    (hP : ∀ capacity s e s', P s → attempt b m w capacity s = .error e s' → P s') {capacity : Nat}
    (h : 1 ≤ capacity) {before size n : Nat} {s s' : Arena.State × σ} (hs : P s)
    (hok : b.attempts m w capacity h before s = (.ok (size, n), s')) :
    ∃ capacity s₁, P s₁ ∧ attempt b m w capacity s₁ = .ok size s' := by
  fun_induction b.attempts m w capacity h before s with
  | case1 capacity h before s size' s₁ ha =>
    cases hok
    exact ⟨capacity, s, hs, ha⟩
  | case2 capacity h before s e s₁ ha hc hlt ih => exact ih (hP _ _ _ _ hs ha) hok
  | case3 capacity h before s e s₁ ha hc t => simp at hok

/-- Attempts that fail end with the removal of the staging file, from a state that failed attempts lead to. -/
theorem attempts_eq_error {b : Builder} {m : Metadata} {w : Writer σ} {P : Arena.State × σ → Prop}
    (hP : ∀ capacity s e s', P s → attempt b m w capacity s = .error e s' → P s') {capacity : Nat}
    (h : 1 ≤ capacity) {before : Nat} {e : Artifact.Error} {s s' : Arena.State × σ} (hs : P s)
    (herr : b.attempts m w capacity h before s = (.error e, s')) :
    ∃ s₁, P s₁ ∧ s' = left (onArena Arena.remove s₁) := by
  fun_induction b.attempts m w capacity h before s with
  | case1 capacity h before s size s₁ ha => simp at herr
  | case2 capacity h before s e' s₁ ha hc hlt ih => exact ih (hP _ _ _ _ hs ha) herr
  | case3 capacity h before s e' s₁ ha hc t =>
    refine ⟨s₁, hP _ _ _ _ hs ha, ?_⟩
    have ht : t = left (onArena Arena.remove s₁) := by
      simp only [t]
      cases onArena Arena.remove s₁ <;> rfl
    exact (Prod.mk.inj herr).2.symm.trans ht

end Builder

theorem Arena.trim_eq_ok {s s' : State} (h : trim s = .ok () s') :
    ∃ m id, s.arena.mapping = some m ∧ s.fs.openToWrite s.arena.path = .ok id ∧
      s' = s.shut (s.fs.setLength id s.arena.size) := by
  rw [trim_apply] at h
  split at h
  · next hopen =>
    obtain ⟨m, hm⟩ := Option.isSome_iff_exists.1 hopen
    rw [resize_apply] at h
    split at h
    · cases h
    · cases hid : s.fs.openToWrite s.arena.path with
      | error e => rw [hid] at h; cases h
      | ok id =>
        rw [hid] at h
        cases h
        exact ⟨m, id, hm, rfl, rfl⟩
  · cases h

end Bindery
