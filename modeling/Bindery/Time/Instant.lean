/-!
# Points in time

A point in time is a number of nanoseconds since the start of 1970, before it counted downwards.
Times are recorded in whole seconds, and the part of a second is dropped toward the epoch:
half a second before the epoch is second zero.

A disk has no room for every time. It keeps those of a range of seconds, in place of a time outside
the nearer end of the range.
-/

namespace Bindery.Time

def nanosPerSecond : Int := 1000000000

/-- A point in time, as nanoseconds since the epoch. -/
structure Instant where
  nanos : Int
  deriving DecidableEq, Inhabited

namespace Instant

/-- The start of a second. -/
def ofSeconds (seconds : Int) : Instant := ⟨seconds * nanosPerSecond⟩

/-- The whole seconds between the epoch and a point in time. -/
def seconds (t : Instant) : Int := t.nanos.tdiv nanosPerSecond

@[simp] theorem seconds_ofSeconds (s : Int) : (ofSeconds s).seconds = s := by
  simp [ofSeconds, seconds, nanosPerSecond]

end Instant

/-- The seconds that the times on a disk lie in. -/
structure Range where
  first : Int64
  last : Int64
  first_le_last : first ≤ last

namespace Range

/-- From 1901 to 2446, which takes a disk 34 bits. -/
def usual : Range := ⟨-2147483648, 15032385535, by decide⟩

/-- All that signed 64 bits hold. -/
def full : Range := ⟨.minValue, .maxValue, by decide⟩

/-- The time that a disk keeps when it is given one. The first and the last second have no parts,
the other ones are kept to the nanosecond. -/
def kept (r : Range) (t : Instant) : Instant :=
  if t.nanos < (r.first.toInt + 1) * nanosPerSecond then .ofSeconds r.first.toInt
  else if r.last.toInt * nanosPerSecond ≤ t.nanos then .ofSeconds r.last.toInt
  else t

/-- A second, or the end of the range that is nearer to it. -/
def nearest (r : Range) (s : Int64) : Int64 :=
  if s < r.first then r.first else if r.last < s then r.last else s

end Range

end Bindery.Time
