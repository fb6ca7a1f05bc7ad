import Bindery.Artifact.Builder

/-!
# Runs of actions

An action run from a state ends with an answer or an error, and leaves a state in both cases. A sequence of
actions answers exactly when each of them does (`bind_eq_ok`), and what every action of a sequence keeps between
the state it begins in and the state it leaves, the sequence keeps (`Keeps.bind`), errors included.
-/

namespace Bindery.Steps

variable {ε σ α β : Type}

/-- The state that a run leaves, whether it failed or not. -/
def left : EStateM.Result ε σ α → σ
  | .ok _ s => s
  | .error _ s => s

@[simp] theorem left_ok (a : α) (s : σ) : left (.ok a s : EStateM.Result ε σ α) = s := rfl

@[simp] theorem left_error (e : ε) (s : σ) : left (.error e s : EStateM.Result ε σ α) = s := rfl

/-- The answer or the error that a run ends with. -/
def answer : EStateM.Result ε σ α → Except ε α
  | .ok a _ => .ok a
  | .error e _ => .error e

theorem eq_ok_of_answer {x : EStateM.Result ε σ α} {a : α} (h : answer x = .ok a) : x = .ok a (left x) := by
  cases x with
  | ok b s => cases h; rfl
  | error e s => cases h

theorem eq_error_of_answer {x : EStateM.Result ε σ α} {e : ε} (h : answer x = .error e) : x = .error e (left x) := by
  cases x with
  | ok a s => cases h
  | error e' s => cases h; rfl

/-- Whether something answers with a value of a property. -/
instance decidableExistsOk (x : Except ε α) (P : α → Prop) [DecidablePred P] : Decidable (∃ a, x = .ok a ∧ P a) :=
  match x with
  | .ok a => decidable_of_iff (P a) (by simp)
  | .error _ => isFalse (by simp)

/-! ### Sequences -/

theorem bind_apply (x : EStateM ε σ α) (f : α → EStateM ε σ β) (s : σ) :
    (x >>= f) s =
      match x s with
      | .ok a s => f a s
      | .error e s => .error e s := rfl

theorem bind_eq_ok {x : EStateM ε σ α} {f : α → EStateM ε σ β} {s s' : σ} {b : β} :
    (x >>= f) s = .ok b s' ↔ ∃ a s₁, x s = .ok a s₁ ∧ f a s₁ = .ok b s' := by
  rw [bind_apply]
  cases hx : x s with
  | ok a s₁ =>
    constructor
    · intro h; exact ⟨a, s₁, rfl, h⟩
    · rintro ⟨a', s₂, h, hf⟩; cases h; exact hf
  | error e s₁ => simp

@[simp] theorem pure_apply (a : α) (s : σ) : (pure a : EStateM ε σ α) s = .ok a s := rfl

@[simp] theorem get_apply (s : σ) : (get : EStateM ε σ σ) s = .ok s s := rfl

/-! ### Answers made of answers -/

theorem left_bind_pure (x : EStateM ε σ α) (f : α → β) (s : σ) :
    left ((x >>= fun a => pure (f a)) s) = left (x s) := by
  rw [bind_apply]
  cases x s <;> rfl

theorem bind_pure_eq_ok {x : EStateM ε σ α} {f : α → β} {s s' : σ} {b : β} :
    (x >>= fun a => pure (f a)) s = .ok b s' ↔ ∃ a, x s = .ok a s' ∧ f a = b := by
  rw [bind_apply]
  cases x s <;> simp
  grind

theorem bind_pure_eq_error {x : EStateM ε σ α} {f : α → β} {s s' : σ} {e : ε} :
    (x >>= fun a => pure (f a)) s = .error e s' ↔ x s = .error e s' := by
  rw [bind_apply]
  cases x s <;> simp

/-! ### What runs keep -/

/-- Every run of an action leaves a state that is related to the one it began in. -/
def Keeps (R : σ → σ → Prop) (x : EStateM ε σ α) : Prop := ∀ s, R s (left (x s))

section Keeps

variable {R : σ → σ → Prop}

theorem Keeps.ok {x : EStateM ε σ α} (h : Keeps R x) {s s' : σ} {a : α} (hx : x s = .ok a s') : R s s' := by
  have := h s
  rwa [hx] at this

theorem Keeps.error {x : EStateM ε σ α} (h : Keeps R x) {s s' : σ} {e : ε} (hx : x s = .error e s') :
    R s s' := by
  have := h s
  rwa [hx] at this

theorem keeps_pure [Std.Refl R] (a : α) : Keeps R (pure a : EStateM ε σ α) := fun s => Std.Refl.refl s

theorem Keeps.bind [Trans R R R] {x : EStateM ε σ α} {f : α → EStateM ε σ β} (hx : Keeps R x)
    (hf : ∀ a, Keeps R (f a)) : Keeps R (x >>= f) := by
  intro s
  rw [bind_apply]
  cases h : x s with
  | ok a s₁ => exact Trans.trans (hx.ok h) (hf a s₁)
  | error e s₁ => exact hx.error h

theorem keeps_get_bind {f : σ → EStateM ε σ β} (hf : ∀ s, R s (left (f s s))) : Keeps R (get >>= f) := hf

end Keeps

end Bindery.Steps
