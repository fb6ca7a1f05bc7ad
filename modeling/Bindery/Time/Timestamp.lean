import Bindery.Time.Instant

/-!
# Timestamps

A timestamp is a number of seconds from the epoch in signed 64 bits. Between a point in time and
its timestamp lies the distance to the epoch, which has no sign: the timestamp of a point before
the epoch is the negative of the whole seconds of its distance. A clock shows the points in time
whose seconds fit in signed 64 bits.
-/

namespace Bindery.Time

/-- A length of time. -/
structure Span where
  seconds : UInt64
  /-- The part of a second that is left. -/
  nanos : Fin 1000000000
  deriving DecidableEq

namespace Span

def ofSeconds (seconds : UInt64) : Span := ⟨seconds, 0⟩

def ofNanos (n : Nat) : Span := ⟨.ofNat (n / 1000000000), Fin.ofNat _ n⟩

def totalNanos (d : Span) : Int := d.seconds.toNat * nanosPerSecond + d.nanos.val

end Span

/-- The size of a signed number, as an unsigned one. -/
def magnitude (n : Int64) : UInt64 := n.abs.toUInt64

/-- What becomes of a number that its type does not hold. The program is built for one or the
other. -/
inductive Overflow where
  /-- The type holds another number that is equal to it modulo the size of the type. -/
  | wraps
  /-- The program stops. -/
  | stops
  deriving DecidableEq

/-- The negative of a signed number. The least one has none. -/
def Overflow.negate? : Overflow → Int64 → Option Int64
  | wraps, n => some (-n)
  | stops, n => if n = .minValue then none else some (-n)

namespace Instant

def epoch : Instant := ⟨0⟩

/-- The clock shows a point in time: the second it lies in is one of signed 64 bits. -/
def IsShown (t : Instant) : Prop :=
  Int64.minValue.toInt * nanosPerSecond ≤ t.nanos ∧
    t.nanos < (Int64.maxValue.toInt + 1) * nanosPerSecond

instance (t : Instant) : Decidable t.IsShown := inferInstanceAs (Decidable (_ ∧ _))

/-- A point in time, if the clock shows it. -/
def shown? (t : Instant) : Option Instant := if t.IsShown then some t else none

def later? (t : Instant) (d : Span) : Option Instant := shown? ⟨t.nanos + d.totalNanos⟩

def earlier? (t : Instant) (d : Span) : Option Instant := shown? ⟨t.nanos - d.totalNanos⟩

/-- The distance from the epoch, as an error if it is a distance backwards. -/
def sinceEpoch (t : Instant) : Except Span Span :=
  if 0 ≤ t.nanos then .ok (.ofNanos t.nanos.toNat) else .error (.ofNanos (-t.nanos).toNat)

/-- The start of a timestamp's second, if the clock shows it. -/
def ofTimestamp? (s : Int64) : Option Instant :=
  if 0 ≤ s then epoch.later? (.ofSeconds s.toUInt64) else epoch.earlier? (.ofSeconds (magnitude s))

/-- The timestamp of a point in time, unless the program stops on the way. -/
def timestamp? (o : Overflow) (t : Instant) : Option Int64 :=
  match t.sinceEpoch with
  | .ok d => some d.seconds.toInt64
  | .error d => o.negate? d.seconds.toInt64

end Instant

end Bindery.Time
