import Bindery.Proofs.FileSystem.Edits
import Bindery.Source
import Bindery.Time.Timestamp

/-!
# Timestamps and points in time

The clock shows the start of every timestamp's second (`Instant.ofTimestamp?_eq`), and the timestamp of a point in
time is its whole seconds, taken into 64 bits, if the program does not stop on the way (`Instant.timestamp?_wraps`,
`Instant.eq_of_timestamp?_eq_some`).  Whole seconds are cut off toward the epoch and keep the order of points in time,
and those of a point that the clock shows fit in 64 bits (`Instant.seconds_bounds`).  The way there leads over the
seconds of a distance, which has no sign.  There is one point alone that the clock shows and whose distance has more
seconds than a signed number holds, the start of the least timestamp's second (`Instant.isExact_iff`): a program that
is built to stop at an overflow stops there, and another one comes by two wrong numbers to the right timestamp.  On the
way over a disk a timestamp is kept if it is in the range of the disk's times (`Source.timestamp?_of_setModified`).
-/

namespace Bindery

open FileSystem

namespace Time

variable {n : Nat} {s : Int64} {o : Overflow}

/-! ### Signed and unsigned numbers -/

/-- A signed number holds an unsigned one that is not above the greatest signed number. -/
theorem toInt_toInt64_iff {k : UInt64} : k.toInt64.toInt = k.toNat ↔ k.toNat ≤ Int64.maxValue.toInt := by
  constructor
  · intro h
    rw [← h]
    exact k.toInt64.toInt_le
  · intro h
    have hk : k.toInt64 = Int64.ofNat k.toNat := by rw [← UInt64.toInt64_ofNat', UInt64.ofNat_toNat]
    rw [Int64.toInt_maxValue] at h
    rw [hk, Int64.toInt_ofNat_of_lt (by omega)]

theorem toInt_neg_of_ne_minValue (h : s ≠ .minValue) : (-s).toInt = -s.toInt := by
  have hle := s.le_toInt
  have hlt := s.toInt_lt
  have hne : s.toInt ≠ -2 ^ 63 := fun he => h (Int64.toInt_inj.1 (he.trans Int64.toInt_minValue.symm))
  rw [Int64.toInt_neg]
  exact Int.bmod_eq_of_le (by omega) (by omega)

theorem toNat_toUInt64_of_nonneg (h : 0 ≤ s) : (s.toUInt64.toNat : Int) = s.toInt := by
  rw [Int64.toNat_toUInt64_of_le h, Int64.cast_toNatClampNeg s h]

theorem toNat_magnitude (s : Int64) : (magnitude s).toNat = s.toInt.natAbs := by
  have hbits : (magnitude s).toNat = s.toBitVec.abs.toNat := rfl
  have hint : s.toInt = s.toBitVec.toInt := rfl
  rw [hbits, hint, BitVec.toNat_abs, BitVec.toInt_eq_msb_cond]
  split <;> omega

theorem Overflow.negate?_eq_some {m : Int64} (h : o.negate? s = some m) : m = -s := by
  cases o with
  | wraps => exact (Option.some.inj h).symm
  | stops =>
    simp only [negate?] at h
    split at h
    · cases h
    · exact (Option.some.inj h).symm

theorem Overflow.negate?_eq_none : o.negate? s = none ↔ o = .stops ∧ s = .minValue := by
  cases o <;> simp [negate?]

/-! ### Lengths of time -/

namespace Span

@[simp] theorem totalNanos_ofSeconds (k : UInt64) : (ofSeconds k).totalNanos = k.toNat * nanosPerSecond := by
  simp [ofSeconds, totalNanos]

theorem toInt64_seconds_ofNanos (n : Nat) : (ofNanos n).seconds.toInt64 = Int64.ofInt (n / 1000000000 : Nat) :=
  Int64.ofInt_eq_ofNat.symm

theorem toNat_seconds_ofNanos (h : n < UInt64.size * 1000000000) : (ofNanos n).seconds.toNat = n / 1000000000 := by
  have hlt : n / 1000000000 < UInt64.size := Nat.div_lt_of_lt_mul (Nat.mul_comm _ _ ▸ h)
  exact UInt64.toNat_ofNat_of_lt' hlt

theorem totalNanos_ofNanos (h : n < UInt64.size * 1000000000) : (ofNanos n).totalNanos = n := by
  have hnanos : (ofNanos n).nanos.val = n % 1000000000 := rfl
  rw [totalNanos, toNat_seconds_ofNanos h, hnanos, nanosPerSecond]
  omega

end Span

namespace Instant

variable {t u : Instant}

/-! ### Whole seconds -/

theorem seconds_of_nonneg (h : 0 ≤ t.nanos) : t.seconds = (t.nanos.toNat / 1000000000 : Nat) := by
  rw [seconds, nanosPerSecond, Int.tdiv_eq_ediv_of_nonneg h]
  omega

theorem seconds_of_neg (h : t.nanos < 0) : t.seconds = -((-t.nanos).toNat / 1000000000 : Nat) := by
  have hneg : t.nanos = -(-t.nanos) := by omega
  rw [seconds, nanosPerSecond, hneg, Int.neg_tdiv, Int.tdiv_eq_ediv_of_nonneg (by omega)]
  omega

theorem seconds_mono (h : t.nanos ≤ u.nanos) : t.seconds ≤ u.seconds := Int.tdiv_le_tdiv (by decide) h

theorem ofSeconds_eq_iff {s' : Int64} : ofSeconds s.toInt = ofSeconds s'.toInt ↔ s = s' := by
  constructor
  · intro h
    have hseconds := congrArg seconds h
    rw [seconds_ofSeconds, seconds_ofSeconds] at hseconds
    exact Int64.toInt_inj.1 hseconds
  · rintro rfl
    rfl

theorem isShown_ofSeconds (s : Int64) : (ofSeconds s.toInt).IsShown := by
  have hle := s.minValue_le_toInt
  have hlt := s.toInt_le
  simp only [IsShown, ofSeconds, nanosPerSecond]
  omega

/-- The whole seconds of a point that the clock shows fit in 64 bits. -/
theorem seconds_bounds (h : t.IsShown) :
    Int64.minValue.toInt ≤ t.seconds ∧ t.seconds ≤ Int64.maxValue.toInt := by
  obtain ⟨hle, hlt⟩ := h
  rw [nanosPerSecond, Int64.toInt_minValue] at hle
  rw [nanosPerSecond, Int64.toInt_maxValue] at hlt
  rw [Int64.toInt_minValue, Int64.toInt_maxValue]
  rcases Int.lt_or_le t.nanos 0 with hneg | hnonneg
  · rw [seconds_of_neg hneg]
    omega
  · rw [seconds_of_nonneg hnonneg]
    omega

theorem toInt_ofInt_seconds (h : t.IsShown) : (Int64.ofInt t.seconds).toInt = t.seconds := by
  obtain ⟨hle, hlt⟩ := seconds_bounds h
  rw [Int64.toInt_minValue] at hle
  rw [Int64.toInt_maxValue] at hlt
  exact Int64.toInt_ofInt_of_le hle (by omega)

/-- The least number of whole seconds is that of the first point that the clock shows, and of no other one. -/
theorem eq_of_seconds_eq (h : t.IsShown) (hs : t.seconds = Int64.minValue.toInt) :
    t = ofSeconds Int64.minValue.toInt := by
  have hle := h.1
  rw [Int64.toInt_minValue] at hs hle ⊢
  rw [nanosPerSecond] at hle
  have hneg : t.nanos < 0 := by
    refine Int.not_le.1 fun hnonneg => ?_
    rw [seconds_of_nonneg hnonneg] at hs
    omega
  rw [seconds_of_neg hneg] at hs
  have hnanos : t.nanos = -2 ^ 63 * 1000000000 := by omega
  cases t
  simpa only [ofSeconds, nanosPerSecond, mk.injEq] using hnanos

/-! ### Distances -/

/-- The distance of a point that the clock shows is exact. -/
theorem sinceEpoch_of_nonneg (h : t.IsShown) (hnonneg : 0 ≤ t.nanos) :
    ∃ d, t.sinceEpoch = .ok d ∧ d.totalNanos = t.nanos ∧ d.seconds.toNat = t.seconds := by
  have hlt := h.2
  rw [nanosPerSecond, Int64.toInt_maxValue] at hlt
  have hfits : t.nanos.toNat < UInt64.size * 1000000000 := by
    rw [UInt64.size]
    omega
  refine ⟨.ofNanos t.nanos.toNat, if_pos hnonneg, ?_, ?_⟩
  · rw [Span.totalNanos_ofNanos hfits, Int.toNat_of_nonneg hnonneg]
  · rw [Span.toNat_seconds_ofNanos hfits, seconds_of_nonneg hnonneg]

theorem sinceEpoch_of_neg (h : t.IsShown) (hneg : t.nanos < 0) :
    ∃ d, t.sinceEpoch = .error d ∧ d.totalNanos = -t.nanos ∧ d.seconds.toNat = -t.seconds := by
  have hle := h.1
  rw [nanosPerSecond, Int64.toInt_minValue] at hle
  have hfits : (-t.nanos).toNat < UInt64.size * 1000000000 := by
    rw [UInt64.size]
    omega
  refine ⟨.ofNanos (-t.nanos).toNat, if_neg (by omega), ?_, ?_⟩
  · rw [Span.totalNanos_ofNanos hfits, Int.toNat_of_nonneg (by omega)]
  · rw [Span.toNat_seconds_ofNanos hfits, seconds_of_neg hneg, Int.neg_neg]

/-! ### Timestamps -/

theorem ofTimestamp?_eq (s : Int64) : ofTimestamp? s = some (ofSeconds s.toInt) := by
  have hshown : (ofSeconds s.toInt).shown? = some (ofSeconds s.toInt) := if_pos (isShown_ofSeconds s)
  have hzero : (0 : Int64).toInt = 0 := rfl
  unfold ofTimestamp?
  split
  · next h =>
    have hlater : (⟨epoch.nanos + (Span.ofSeconds s.toUInt64).totalNanos⟩ : Instant) = ofSeconds s.toInt := by
      rw [Span.totalNanos_ofSeconds, toNat_toUInt64_of_nonneg h, epoch, Int.zero_add, ofSeconds]
    rw [later?, hlater, hshown]
  · next h =>
    rw [Int64.le_iff_toInt_le, hzero] at h
    have hearlier : (⟨epoch.nanos - (Span.ofSeconds (magnitude s)).totalNanos⟩ : Instant) = ofSeconds s.toInt := by
      have hmagnitude : ((magnitude s).toNat : Int) = -s.toInt := by
        rw [toNat_magnitude]
        omega
      rw [Span.totalNanos_ofSeconds, hmagnitude, epoch, ofSeconds, Int.neg_mul]
      simp
    rw [earlier?, hearlier, hshown]

theorem timestamp?_of_nonneg (h : 0 ≤ t.nanos) : t.timestamp? o = some (Int64.ofInt t.seconds) := by
  have hsince : t.sinceEpoch = .ok (.ofNanos t.nanos.toNat) := if_pos h
  rw [timestamp?, hsince, seconds_of_nonneg h, ← Span.toInt64_seconds_ofNanos]

theorem timestamp?_of_neg (h : t.nanos < 0) : t.timestamp? o = o.negate? (Int64.ofInt (-t.seconds)) := by
  have hsince : t.sinceEpoch = .error (.ofNanos (-t.nanos).toNat) := if_neg (by omega)
  rw [timestamp?, hsince, seconds_of_neg h, Int.neg_neg, ← Span.toInt64_seconds_ofNanos]

theorem timestamp?_wraps (t : Instant) : t.timestamp? .wraps = some (Int64.ofInt t.seconds) := by
  rcases Int.lt_or_le t.nanos 0 with hneg | hnonneg
  · rw [timestamp?_of_neg hneg, Int64.ofInt_neg, Overflow.negate?, Int64.neg_neg]
  · exact timestamp?_of_nonneg hnonneg

theorem eq_of_timestamp?_eq_some (h : t.timestamp? o = some s) : s = Int64.ofInt t.seconds := by
  rcases Int.lt_or_le t.nanos 0 with hneg | hnonneg
  · rw [timestamp?_of_neg hneg] at h
    rw [Overflow.negate?_eq_some h, Int64.ofInt_neg, Int64.neg_neg]
  · rw [timestamp?_of_nonneg hnonneg] at h
    exact (Option.some.inj h).symm

theorem toInt_eq_of_timestamp? (h : t.IsShown) (hs : t.timestamp? o = some s) : s.toInt = t.seconds := by
  rw [eq_of_timestamp?_eq_some hs, toInt_ofInt_seconds h]

/-! ### The least timestamp -/

theorem timestamp?_eq_none (h : t.IsShown) :
    t.timestamp? o = none ↔ o = .stops ∧ t = ofSeconds Int64.minValue.toInt := by
  rcases Int.lt_or_le t.nanos 0 with hneg | hnonneg
  · rw [timestamp?_of_neg hneg, Overflow.negate?_eq_none]
    -- The seconds fit, so that they can be told from what the cast makes of their negative.
    refine and_congr_right fun _ => ⟨fun hmin => eq_of_seconds_eq h ?_, ?_⟩
    · rw [← toInt_ofInt_seconds h, ← @Int64.neg_neg (.ofInt t.seconds), ← Int64.ofInt_neg, hmin]
      rfl
    · rintro rfl
      rfl
  · rw [timestamp?_of_nonneg hnonneg]
    constructor
    · intro hnone
      cases hnone
    · rintro ⟨-, rfl⟩
      exact absurd hnonneg (by decide)

theorem timestamp?_ofSeconds (o : Overflow) (s : Int64) :
    (ofSeconds s.toInt).timestamp? o = if o = .stops ∧ s = .minValue then none else some s := by
  have hnone := timestamp?_eq_none (o := o) (isShown_ofSeconds s)
  rw [ofSeconds_eq_iff] at hnone
  split
  · next h => exact hnone.2 h
  · next h =>
    obtain ⟨s', hs'⟩ := Option.ne_none_iff_exists'.1 (mt hnone.1 h)
    rw [hs', eq_of_timestamp?_eq_some hs', seconds_ofSeconds, Int64.ofInt_toInt]

/-- Every number on the way from a point in time to its timestamp is the one that is meant: the distance, its seconds
as a signed number, and before the epoch the negative of these. -/
def IsExact (t : Instant) : Prop :=
  match t.sinceEpoch with
  | .ok d => d.totalNanos = t.nanos ∧ d.seconds.toInt64.toInt = d.seconds.toNat
  | .error d =>
    d.totalNanos = -t.nanos ∧ d.seconds.toInt64.toInt = d.seconds.toNat ∧
      (-d.seconds.toInt64).toInt = -d.seconds.toInt64.toInt

/-- The clock shows one point alone with a distance that has too many seconds for a signed number. -/
theorem isExact_iff (h : t.IsShown) : t.IsExact ↔ t ≠ ofSeconds Int64.minValue.toInt := by
  obtain ⟨hle, hlt⟩ := seconds_bounds h
  rcases Int.lt_or_le t.nanos 0 with hneg | hnonneg
  · obtain ⟨d, hd, htotal, hseconds⟩ := sinceEpoch_of_neg h hneg
    simp only [IsExact, hd, htotal, true_and, toInt_toInt64_iff]
    constructor
    -- The distance of the least second has 2 ^ 63 seconds, one more than the cast can take.
    · rintro ⟨hcast, -⟩ rfl
      rw [seconds_ofSeconds, Int64.toInt_minValue] at hseconds
      rw [Int64.toInt_maxValue] at hcast
      omega
    · intro hne
      have hmin : t.seconds ≠ Int64.minValue.toInt := fun hs => hne (eq_of_seconds_eq h hs)
      have hcast : d.seconds.toNat ≤ Int64.maxValue.toInt := by
        rw [Int64.toInt_minValue] at hmin hle
        rw [Int64.toInt_maxValue]
        omega
      refine ⟨hcast, toInt_neg_of_ne_minValue fun hs => ?_⟩
      have hint := toInt_toInt64_iff.2 hcast
      rw [hs, Int64.toInt_minValue] at hint
      omega
  · obtain ⟨d, hd, htotal, hseconds⟩ := sinceEpoch_of_nonneg h hnonneg
    simp only [IsExact, hd, htotal, true_and, toInt_toInt64_iff]
    constructor
    · rintro - rfl
      exact absurd hnonneg (by decide)
    · intro _
      omega

end Instant

/-! ### The times of a disk -/

namespace Range

variable {r : Range}

theorem toInt_nearest (r : Range) (s : Int64) :
    (r.nearest s).toInt = max r.first.toInt (min s.toInt r.last.toInt) := by
  have hrange := Int64.le_iff_toInt_le.1 r.first_le_last
  unfold nearest
  simp only [Int64.lt_iff_toInt_lt]
  split
  · omega
  · split <;> omega

theorem nearest_eq_self : r.nearest s = s ↔ r.first ≤ s ∧ s ≤ r.last := by
  have hrange := Int64.le_iff_toInt_le.1 r.first_le_last
  rw [← Int64.toInt_inj, toInt_nearest, Int64.le_iff_toInt_le, Int64.le_iff_toInt_le]
  omega

/-- The start of a second is kept as the start of a second. -/
theorem kept_ofSeconds (r : Range) (s : Int64) : r.kept (.ofSeconds s.toInt) = .ofSeconds (r.nearest s).toInt := by
  have hrange := Int64.le_iff_toInt_le.1 r.first_le_last
  have hnanos : (Instant.ofSeconds s.toInt).nanos = s.toInt * nanosPerSecond := rfl
  rw [toInt_nearest]
  unfold kept
  rw [hnanos, nanosPerSecond]
  split
  · exact congrArg Instant.ofSeconds (by omega)
  · split <;> exact congrArg Instant.ofSeconds (by omega)

/-- Of a time in the first second the part of the second is dropped, and of one in the next second it is kept. -/
example : Range.usual.kept ⟨-2147483647500000000⟩ = .ofSeconds (-2147483648) ∧
    Range.usual.kept ⟨-2147483646500000000⟩ = ⟨-2147483646500000000⟩ := by decide

end Range

end Time

/-! ### Files -/

namespace Source

open Time

variable {fs fs' : FileSystem} {p : Path} {t : Instant}

/-- What is recorded for a path is the timestamp of the time at which the file or directory there was modified. -/
theorem timestamp?_of_stat {r : Route} {node : Node} (h : fs.stat p = .ok (r, node)) :
    timestamp? fs p = (node.modified fs).timestamp? .wraps := by
  rw [Instant.timestamp?_wraps, timestamp?, lastModified?, h]
  rfl

theorem timestamp?_of_setModified (h : fs.setModified p t = .ok fs') :
    timestamp? fs' p = (fs.times.kept t).timestamp? .wraps := by
  unfold setModified at h
  cases hopen : fs.openToWrite p with
  | error e =>
    rw [hopen] at h
    cases h
  | ok id =>
    rw [hopen] at h
    cases h
    obtain ⟨r, hstat⟩ := openToWrite_eq_ok.1 (openToWrite_modifyFile hopen id fun f =>
      { f with modified := fs.times.kept t })
    rw [timestamp?_of_stat hstat, Node.modified, file_modifyFile _ _ _ _ (known_of_openToWrite hopen), if_pos rfl]

end Source

/-! ### There and back -/

namespace Time.Instant

/-- The clock shows the start of a timestamp's second, and the timestamp of that is the same one again.  The numbers on
the way are exact but for the least timestamp, whose size is no signed number: a program that stops at an overflow stops
there, and at no other time.  A file that is given a timestamp has it if it is in the range of the disk's times, and the
nearer end of the range otherwise.  A timestamp is the time in seconds, cut off toward zero, and the later of two times
has no lesser one. -/
theorem timestamps_come_back_and_keep_order (o : Overflow) (s : Int64) :
    ofTimestamp? s = some (ofSeconds s.toInt) ∧
      (0 ≤ s → (s.toUInt64.toNat : Int) = s.toInt) ∧ (magnitude s).toNat = s.toInt.natAbs ∧
      (ofSeconds s.toInt).timestamp? o = (if o = .stops ∧ s = .minValue then none else some s) ∧
      ((ofSeconds s.toInt).IsExact ↔ s ≠ .minValue) ∧
      (∀ (fs fs' : FileSystem) (p : Path), fs.setModified p (ofSeconds s.toInt) = .ok fs' →
        Source.timestamp? fs' p = some (fs.times.nearest s) ∧
          (Source.timestamp? fs' p = some s ↔ fs.times.first ≤ s ∧ s ≤ fs.times.last)) ∧
      (∀ t : Instant, t.IsShown →
        (t.timestamp? o = none ↔ o = .stops ∧ t = ofSeconds Int64.minValue.toInt) ∧
        ∀ s, t.timestamp? o = some s → s.toInt = t.nanos.tdiv nanosPerSecond) ∧
      ∀ (t u : Instant) (s s' : Int64), t.IsShown → u.IsShown → t.nanos ≤ u.nanos →
        t.timestamp? o = some s → u.timestamp? o = some s' → s ≤ s' := by
  refine ⟨ofTimestamp?_eq s, toNat_toUInt64_of_nonneg, toNat_magnitude s, timestamp?_ofSeconds o s, ?_, ?_,
    fun t ht => ⟨timestamp?_eq_none ht, ?_⟩, ?_⟩
  · rw [isExact_iff (isShown_ofSeconds s), ne_eq, ofSeconds_eq_iff]
  · intro fs fs' p hset
    have hkept : Source.timestamp? fs' p = some (fs.times.nearest s) := by
      rw [Source.timestamp?_of_setModified hset, Range.kept_ofSeconds, timestamp?_ofSeconds]
      rfl
    refine ⟨hkept, ?_⟩
    rw [hkept, Option.some.injEq]
    exact Range.nearest_eq_self
  · intro s hs
    exact toInt_eq_of_timestamp? ht hs
  · intro t u s s' ht hu htu hs hs'
    rw [Int64.le_iff_toInt_le, toInt_eq_of_timestamp? ht hs, toInt_eq_of_timestamp? hu hs']
    exact seconds_mono htu

/-- The largest timestamp; a file that is given the time of five seconds before the epoch; and half a second before
the epoch, in second zero, with a second earlier, in second -1. -/
theorem timestamps_around_epoch :
    (Int64.maxValue.toUInt64.toNat : Int) = Int64.maxValue.toInt ∧ ∃ fs fs' : FileSystem,
      fs.setModified (.ofString "a") (ofSeconds (-5 : Int64).toInt) = .ok fs' ∧
      Source.timestamp? fs' (.ofString "a") = some (-5) ∧
      (0 : Int64).toInt = (-500000000 : Int).tdiv nanosPerSecond ∧
      timestamp? .stops ⟨-1500000000⟩ = some (-1) ∧ timestamp? .stops ⟨-500000000⟩ = some 0 ∧ (-1 : Int64) ≤ 0 := by
  have hset : ((bare ⟨0⟩).addFile [Text.encode "a"] ⟨.empty, ⟨0⟩⟩).setModified (.ofString "a")
      (ofSeconds (-5 : Int64).toInt) = .ok _ := rfl
  obtain ⟨-, hunsigned, -⟩ := timestamps_come_back_and_keep_order .stops .maxValue
  obtain ⟨-, -, -, -, -, hdisk, htruncated, horder⟩ := timestamps_come_back_and_keep_order .stops (-5)
  have hzero : timestamp? .stops ⟨-500000000⟩ = some 0 := by decide
  have hone : timestamp? .stops ⟨-1500000000⟩ = some (-1) := by decide
  exact ⟨hunsigned (by decide), _, _, hset, (hdisk _ _ _ hset).2.2 (by decide),
    (htruncated ⟨-500000000⟩ (by decide)).2 0 hzero, hone, hzero,
    horder ⟨-1500000000⟩ ⟨-500000000⟩ (-1) 0 (by decide) (by decide) (by decide) hone hzero⟩

/-- The clock shows the start of the least timestamp's second.  The seconds of its distance are no signed number, and
what a signed number makes of them has no negative.  A disk that keeps all timestamps can hold a file of that time. -/
theorem least_timestamp_overflows :
    ∃ t, ofTimestamp? .minValue = some t ∧ ¬t.IsExact ∧ t.timestamp? .stops = none ∧
      ∃ (fs fs' : FileSystem) (r : Route) (node : Node), fs.times = .full ∧
        fs.setModified (.ofString "a") t = .ok fs' ∧ fs'.stat (.ofString "a") = .ok (r, node) ∧
        (node.modified fs').timestamp? .stops = none := by
  refine ⟨ofSeconds Int64.minValue.toInt, by decide, fun h => (isExact_iff (by decide)).1 h rfl, by decide,
    { (bare ⟨0⟩).addFile [Text.encode "a"] ⟨.empty, ⟨0⟩⟩ with times := .full }, _, _, _, rfl, rfl, rfl, ?_⟩
  decide

end Time.Instant

end Bindery
