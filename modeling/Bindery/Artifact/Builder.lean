import Bindery.Arena.Allocate
import Bindery.Artifact.Reader

/-!
# Building artifacts

An artifact is written into a staging file beside its destination, header first, then the payload,
then the metadata, and takes the destination's name when it is complete. An arena's capacity is
fixed, so when the space runs out the attempt is thrown away and made again with a larger one, up
to a limit; the writer of the payload runs in every attempt and may carry a state of its own from
one to the next. On failure the staging file is removed.
-/

namespace Bindery

structure Builder where
  initialCapacity : Nat
  growthFactor : Nat
  maxCapacity : Nat
  payloadKind : UInt32
  two_le_growthFactor : 2 ≤ growthFactor
  maxCapacity_le : maxCapacity ≤ Arena.maxCapacity

structure Build.Outcome where
  path : Path
  size : Nat
  /-- The number of attempts, the last one included. -/
  attempts : Nat
  deriving DecidableEq

/-- A step of a build: it acts on the arena, the files and the writer's own state. -/
abbrev Build.Action (σ : Type) := EStateM Artifact.Error (Arena.State × σ)

namespace Build

/-- A call on the arena as a step of a build. -/
def onArena {σ α : Type} (call : Arena.Action α) : Action σ α := fun (s, u) =>
  match call s with
  | .ok a s => .ok a (s, u)
  | .error e s => .error (.arena e) (s, u)

end Build

/-- Writes a payload and answers its root. -/
abbrev Writer (σ : Type) := Build.Action σ Arena.Offset

namespace Builder

open Build

/-- How artifacts are built with given sizes. The growth factor is at least 2, and no capacity is
tried that offsets do not reach into. -/
def ofSizes (initialCapacity growthFactor maxCapacity : Nat) (payloadKind : UInt32) : Builder where
  initialCapacity
  growthFactor := max growthFactor 2
  maxCapacity := min maxCapacity Arena.maxCapacity
  payloadKind
  two_le_growthFactor := Nat.le_max_right growthFactor 2
  maxCapacity_le := Nat.min_le_right maxCapacity Arena.maxCapacity

/-- One MiB to begin with, twice as much every time, up to the largest capacity. -/
def standard : Builder := ofSizes 0x100000 2 Arena.maxCapacity 0

/-- The capacity of the first attempt: at least 1, and no more than the largest. -/
def firstCapacity (b : Builder) : Nat := max 1 (min b.initialCapacity (max b.maxCapacity 1))

def nextCapacity (b : Builder) (capacity : Nat) : Nat :=
  min (capacity * b.growthFactor) b.maxCapacity

theorem one_le_firstCapacity (b : Builder) : 1 ≤ b.firstCapacity := Nat.le_max_left 1 _

theorem lt_nextCapacity (b : Builder) {capacity : Nat} (h₁ : 1 ≤ capacity)
    (h₂ : capacity < b.maxCapacity) : capacity < b.nextCapacity capacity := by
  have := Nat.mul_le_mul_left capacity b.two_le_growthFactor
  unfold nextCapacity
  omega

def stagingPath (destination : Path) : Path := destination.append ".tmp"

/-- Fills in where a header's payload and metadata lie. -/
def placeHeader (header : Arena.Offset) (root block : Arena.Offset) (length : Nat) :
    Arena.Action Unit := do
  let bytes ← Arena.look fun s => s.get Artifact.headerLayout header
  Arena.write Artifact.headerLayout header
    { Artifact.Header.decode bytes with
      payloadRoot := root.raw
      metadataOffset := block.raw
      metadataLength := UInt32.ofNat length }.encode

/-- One attempt. It answers the size of the artifact and leaves the arena closed. -/
def attempt {σ : Type} (b : Builder) (m : Metadata) (writer : Writer σ) (capacity : Nat) :
    Build.Action σ Nat := do
  onArena (Arena.create capacity)
  let header ← onArena
    (Arena.push Artifact.headerLayout (Artifact.Header.ofKind b.payloadKind).encode)
  let root ← writer
  let encoded := m.encode
  let block ← onArena (Arena.pushAll .byte (encoded.map fun byte => [byte]))
  onArena (placeHeader header root block encoded.length)
  let size := (← get).1.arena.size
  onArena Arena.flush
  onArena Arena.trim
  pure size

/-- Attempts with growing capacities until one succeeds, fails for another reason than space, or
has the largest capacity. Answers the size and the number of attempts. -/
def attempts {σ : Type} (b : Builder) (m : Metadata) (writer : Writer σ) (capacity : Nat)
    (h : 1 ≤ capacity) (before : Nat) (s : Arena.State × σ) :
    Except Artifact.Error (Nat × Nat) × (Arena.State × σ) :=
  match attempt b m writer capacity s with
  | .ok size s => (.ok (size, before + 1), s)
  | .error e s =>
    if hc : e.isExhausted = true ∧ capacity < b.maxCapacity then
      have := b.lt_nextCapacity h hc.2
      b.attempts m writer (b.nextCapacity capacity) (by omega) (before + 1) s
    else
      let s :=
        match onArena (σ := σ) Arena.remove s with
        | .ok _ s => s
        | .error _ s => s
      (.error (if e.isExhausted then .capacityLimit capacity else e), s)
termination_by b.maxCapacity - capacity

def makeParent (fs : FileSystem) (destination : Path) : Except Artifact.Error Unit × FileSystem :=
  match destination.parent?.filter fun p => !p.isEmpty with
  | none => (.ok (), fs)
  | some p =>
    match fs.makeDirectories p with
    | (.ok (), fs) => (.ok (), fs)
    | (.error fault, fs) => (.error (.file p fault), fs)

def build {σ : Type} (b : Builder) (destination : Path) (m : Metadata) (writer : Writer σ)
    (fs : FileSystem) (u : σ) : Except Artifact.Error Outcome × FileSystem × σ :=
  match makeParent fs destination with
  | (.error e, fs) => (.error e, fs, u)
  | (.ok (), fs) =>
    let start : Arena.State := ⟨fs, .closed (stagingPath destination)⟩
    match b.attempts m writer b.firstCapacity b.one_le_firstCapacity 0 (start, u) with
    | (.error e, s, u) => (.error e, s.fs, u)
    | (.ok (size, attempts), s, u) =>
      match s.fs.rename (stagingPath destination) destination with
      | .error fault => (.error (.file destination fault), s.fs, u)
      | .ok fs => (.ok ⟨destination, size, attempts⟩, fs, u)

end Builder

end Bindery
