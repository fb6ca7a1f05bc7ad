import Bindery.Freshness
import Bindery.Proofs.FileSystem.Edits
import Bindery.Proofs.SortedMap
import Mathlib.Control.Monad.Basic

/-!
# Fresh sources have not changed

A record made of sources in one file system is compared with sources in another.  If nothing is stale then both
have the same ids, and every source is either absent where its stamp is blank, or loaded and present in both file
systems, with the same time and, if it could be read, the same checksum (`fresh_sources_are_unchanged`).  The
stamp is read first: one that is not blank tells of a loaded source that was there (`Source.stamp_eq`).
-/

namespace Bindery

open FileSystem

/-! ### Stamps -/

namespace Source

variable {fs : FileSystem} {s : Source}

theorem pathExists_of_timestamp? {p : Path} {t : Int64} (h : timestamp? fs p = some t) : fs.pathExists p = true := by
  unfold timestamp? lastModified? at h
  rw [pathExists_eq_true]
  cases hs : fs.stat p with
  | error e => rw [hs] at h; cases h
  | ok found => exact ⟨found.1, found.2, rfl⟩

theorem stamp_eq (h : (s.stamp fs).isBlank = false) :
    ∃ p t, s.path = some p ∧ s.loaded = true ∧ timestamp? fs p = some t ∧
      s.stamp fs = ⟨t, (Checksum.ofFile fs p).toOption⟩ := by
  unfold stamp at h ⊢
  cases hp : s.path with
  | none => rw [hp] at h; cases h
  | some p =>
    rw [hp] at h
    dsimp only at h ⊢
    cases hl : s.loaded with
    | false => rw [hl] at h; cases h
    | true =>
      rw [hl] at h
      cases ht : timestamp? fs p with
      | none => rw [ht] at h; cases h
      | some t => exact ⟨p, t, rfl, rfl, ht, rfl⟩

/-- A source was loaded and there, and another one is, with the same time and the same contents, as far as a time
in whole seconds and a checksum tell. -/
structure Unchanged (fs₁ fs₂ : FileSystem) (s₁ s₂ : Source) : Prop where
  loaded : s₁.loaded = true ∧ s₂.loaded = true
  present : ∃ p₁ p₂ t, s₁.path = some p₁ ∧ s₂.path = some p₂ ∧ fs₁.pathExists p₁ = true ∧ fs₂.pathExists p₂ = true ∧
    t ≠ 0 ∧ timestamp? fs₁ p₁ = some t ∧ timestamp? fs₂ p₂ = some t ∧
    ∀ bytes₁, fs₁.read p₁ = .ok bytes₁ →
      ∃ bytes₂, fs₂.read p₂ = .ok bytes₂ ∧ Checksum.crc32 bytes₂ = Checksum.crc32 bytes₁

end Source

namespace Tracker

variable {t t₁ t₂ : Tracker} {fs fs₁ fs₂ : FileSystem} {s s₁ s₂ : Source} {sources sources₁ sources₂ : List Source}

/-! ### Records -/

private theorem resources_foldl (r : BuildRecord) :
    (sources.foldl (fun r s => r.insert s.id (s.stamp fs)) r).resources =
      sources.foldl (fun m s => m.insert s.id (s.stamp fs)) r.resources := by
  induction sources generalizing r with
  | nil => rfl
  | cons s sources ih => exact ih _

theorem exists_of_get?_record {id : String} {stamp : Stamp} (h : (t.record fs sources).get? id = some stamp) :
    ∃ s ∈ sources, s.id = id ∧ s.stamp fs = stamp := by
  unfold record BuildRecord.get? at h
  rw [resources_foldl] at h
  exact SortedMap.exists_of_get?_foldl_insert h

theorem get?_record_of_agree (h : ∀ s ∈ sources, ∀ s' ∈ sources, s.id = s'.id → s.stamp fs = s'.stamp fs) {id : String}
    {stamp : Stamp} :
    (t.record fs sources).get? id = some stamp ↔ ∃ s ∈ sources, s.id = id ∧ s.stamp fs = stamp := by
  unfold record BuildRecord.get?
  rw [resources_foldl]
  exact SortedMap.get?_foldl_insert_of_agree h

theorem get?_record (h : (sources.map Source.id).Nodup) {id : String} {stamp : Stamp} :
    (t.record fs sources).get? id = some stamp ↔ ∃ s ∈ sources, s.id = id ∧ s.stamp fs = stamp :=
  get?_record_of_agree fun _ hs _ hs' he => congrArg _ (List.inj_on_of_nodup_map h hs hs' he)

theorem engineVersion_record (t : Tracker) (fs : FileSystem) (sources : List Source) :
    (t.record fs sources).engineVersion = t.engineVersion := by
  have h (r : BuildRecord) :
      (sources.foldl (fun r s => r.insert s.id (s.stamp fs)) r).engineVersion = r.engineVersion := by
    induction sources generalizing r with
    | nil => rfl
    | cons s sources ih => exact ih _
  exact h _

/-! ### Comparisons -/

/-- What is not stale is absent and was never built, or is there as it was recorded. -/
theorem staleness?_eq_none {stamp : Stamp} (h : t.staleness? fs stamp s = none) :
    (stamp.isBlank = true ∧ ∀ p, s.path = some p → fs.pathExists p = false) ∨
      ∃ p, s.path = some p ∧ fs.pathExists p = true ∧ s.loaded = true ∧ stamp.isBlank = false ∧
        (Source.timestamp? fs p).getD 0 = stamp.timestamp ∧
        (t.verifyChecksums = true → ∀ c, stamp.checksum = some c → (Checksum.ofFile fs p).toOption = some c) := by
  have hexisting : s.existingPath? fs = s.path.filter fs.pathExists := rfl
  unfold staleness? at h
  rw [hexisting] at h
  cases hp : s.path with
  | none =>
    refine .inl ⟨?_, nofun⟩
    rw [hp] at h
    cases hl : s.loaded with
    | true => rw [hl] at h; cases h
    | false =>
      rw [hl] at h
      by_contra hb
      simp [hb] at h
  | some p =>
    rw [hp] at h
    simp only [Option.isNone_some, Bool.and_false, Bool.false_eq_true, if_false] at h
    cases hex : fs.pathExists p with
    | false =>
      refine .inl ⟨?_, ?_⟩
      · by_contra hb
        simp [Option.filter, hex, hb] at h
      · rintro q hq
        cases hq
        exact hex
    | true =>
      simp only [Option.filter, hex, if_true] at h
      -- one check after the other: loaded, recorded, the time, the checksum
      split at h
      · cases h
      next hloaded =>
      split at h
      · cases h
      next hblank =>
      split at h
      · cases h
      next htime =>
      split at h
      · cases h
      next hsum =>
      refine .inr ⟨p, rfl, hex, by simpa using hloaded, by simpa using hblank, by simpa using htime, ?_⟩
      intro hv c hc
      by_contra hne
      simp [hv, hc, hne] at hsum

/-- Sources are fresh if they have the ids of the record, none is stale, and the engine is not older than the
record's. -/
theorem isFresh_iff {r : BuildRecord} :
    t.isFresh fs r sources = true ↔
      (∀ id ∈ r.resources.keys, id ∈ sources.map Source.id) ∧
        (∀ s ∈ sources, ∃ stamp, r.get? s.id = some stamp ∧ t.staleness? fs stamp s = none) ∧
        Version.order r.engineVersion t.engineVersion ≠ .gt := by
  have hreason (s : Source) : t.reason? fs r s = none ↔
      ∃ stamp, r.get? s.id = some stamp ∧ t.staleness? fs stamp s = none := by
    unfold reason?
    cases r.get? s.id with
    | none => simp
    | some stamp => simp
  unfold isFresh Freshness.isFresh check
  simp only [Bool.and_eq_true, List.isEmpty_iff, List.append_eq_nil_iff, List.map_eq_nil_iff, List.filter_eq_nil_iff,
    List.filterMap_eq_nil_iff, Option.map_eq_none_iff, hreason]
  have hnewer : (if Version.order r.engineVersion t.engineVersion = .gt then some r.engineVersion
      else none).isNone = true ↔ Version.order r.engineVersion t.engineVersion ≠ .gt := by
    split <;> simp [*]
  rw [hnewer, and_assoc]
  simp

theorem isFresh_eq_true {r : BuildRecord} (h : t.isFresh fs r sources = true) :
    (∀ id ∈ r.resources.keys, id ∈ sources.map Source.id) ∧
      ∀ s ∈ sources, ∃ stamp, r.get? s.id = some stamp ∧ t.staleness? fs stamp s = none :=
  ⟨(isFresh_iff.1 h).1, (isFresh_iff.1 h).2.1⟩

/-! ### Two file systems -/

theorem unchanged_of_staleness? (hv : t.verifyChecksums = true) {p : Path} (hp : s₂.path = some p)
    (hex : fs₂.pathExists p = true) (hl : s₂.loaded = true) (hblank : (s₁.stamp fs₁).isBlank = false)
    (htime : (Source.timestamp? fs₂ p).getD 0 = (s₁.stamp fs₁).timestamp)
    (hsum : t.verifyChecksums = true → ∀ c, (s₁.stamp fs₁).checksum = some c →
      (Checksum.ofFile fs₂ p).toOption = some c) :
    Source.Unchanged fs₁ fs₂ s₁ s₂ := by
  obtain ⟨p₁, time, hp₁, hl₁, ht₁, hstamp⟩ := Source.stamp_eq hblank
  rw [hstamp] at hblank htime hsum
  have hne : time ≠ 0 := by
    unfold Stamp.isBlank at hblank
    simpa using hblank
  -- a time that cannot be read counts as zero, which no recorded time is
  have ht₂ : Source.timestamp? fs₂ p = some time := by
    cases ht : Source.timestamp? fs₂ p with
    | none => rw [ht] at htime; exact absurd htime.symm hne
    | some time' => rw [ht] at htime; exact congrArg some htime
  refine ⟨⟨hl₁, hl⟩, p₁, p, time, hp₁, hp, Source.pathExists_of_timestamp? ht₁, hex, hne, ht₁, ht₂, ?_⟩
  intro bytes₁ hbytes₁
  have hc : (Checksum.ofFile fs₁ p₁).toOption = some (Checksum.crc32 bytes₁) := by
    rw [Checksum.ofFile_eq, hbytes₁]
    rfl
  have hc₂ := hsum hv _ hc
  rw [Checksum.ofFile_eq] at hc₂
  cases hbytes₂ : fs₂.read p with
  | error fault => rw [hbytes₂] at hc₂; cases hc₂
  | ok bytes₂ =>
    rw [hbytes₂] at hc₂
    exact ⟨bytes₂, rfl, Option.some.inj hc₂⟩

/-- Sources that are fresh by a record of other sources have the same ids, and each is absent where nothing was
built, or unchanged. -/
theorem fresh_sources_are_unchanged (hv : t₂.verifyChecksums = true) (hids : (sources₁.map Source.id).Nodup)
    (h : t₂.isFresh fs₂ (t₁.record fs₁ sources₁) sources₂ = true) :
    (∀ id, id ∈ sources₁.map Source.id ↔ id ∈ sources₂.map Source.id) ∧
      ∀ s₂ ∈ sources₂, ∃ s₁ ∈ sources₁, s₁.id = s₂.id ∧
        (((s₁.stamp fs₁).isBlank = true ∧ ∀ p, s₂.path = some p → fs₂.pathExists p = false) ∨
          Source.Unchanged fs₁ fs₂ s₁ s₂) := by
  obtain ⟨hkeys, hfresh⟩ := isFresh_eq_true h
  refine ⟨fun id => ⟨fun hid => ?_, fun hid => ?_⟩, fun s₂ hs₂ => ?_⟩
  · obtain ⟨s₁, hs₁, rfl⟩ := List.mem_map.1 hid
    exact hkeys _ (SortedMap.mem_keys_of_get? ((get?_record hids).2 ⟨s₁, hs₁, rfl, rfl⟩))
  · obtain ⟨s₂, hs₂, rfl⟩ := List.mem_map.1 hid
    obtain ⟨stamp, hget, -⟩ := hfresh s₂ hs₂
    obtain ⟨s₁, hs₁, he, -⟩ := (get?_record hids).1 hget
    exact he ▸ List.mem_map_of_mem hs₁
  · obtain ⟨stamp, hget, hstale⟩ := hfresh s₂ hs₂
    obtain ⟨s₁, hs₁, he, rfl⟩ := (get?_record hids).1 hget
    refine ⟨s₁, hs₁, he, ?_⟩
    rcases staleness?_eq_none hstale with habsent | ⟨p, hp, hex, hl, hblank, htime, hsum⟩
    · exact .inl habsent
    · exact .inr (unchanged_of_staleness? hv hp hex hl hblank htime hsum)

/-- A source that is there both times, and one that is not: the second file system has another file and another
path for the source that is missing. -/
theorem fresh_sources_are_unchanged_beside_new_file :
    ∃ fs₁ fs₂ : FileSystem, ∃ t : Tracker,
      t.isFresh fs₂ (t.record fs₁ [⟨"a", some (.ofString "a"), true⟩, ⟨"b", none, false⟩])
        [⟨"b", some (.ofString "b"), false⟩, ⟨"a", some (.ofString "a"), true⟩] = true ∧
      Source.Unchanged fs₁ fs₂ ⟨"a", some (.ofString "a"), true⟩ ⟨"a", some (.ofString "a"), true⟩ := by
  let file : File := ⟨.ofList [1, 2, 3], .ofSeconds 5⟩
  let fs₁ := (bare ⟨0⟩).addFile [Text.encode "a"] file
  let fs₂ := ((bare ⟨9⟩).addFile [Text.encode "c"] ⟨.ofList [7], ⟨0⟩⟩).addFile [Text.encode "a"] file
  have hfresh : Tracker.isFresh ⟨"1", "", true⟩ fs₂ (Tracker.record ⟨"1", "", true⟩ fs₁
      [⟨"a", some (.ofString "a"), true⟩, ⟨"b", none, false⟩])
      [⟨"b", some (.ofString "b"), false⟩, ⟨"a", some (.ofString "a"), true⟩] = true := by
    decide +kernel
  obtain ⟨-, h⟩ := fresh_sources_are_unchanged rfl (by decide) hfresh
  obtain ⟨s₁, hs₁, hid, h⟩ := h _ (List.mem_cons_of_mem _ List.mem_cons_self)
  refine ⟨fs₁, fs₂, _, hfresh, ?_⟩
  rcases List.mem_cons.1 hs₁ with rfl | hs₁
  · refine h.resolve_left fun habsent => ?_
    have hexists : fs₂.pathExists (.ofString "a") = true := by decide +kernel
    exact absurd (habsent.2 _ rfl) (by simp [hexists])
  · rw [List.mem_singleton.1 hs₁] at hid
    exact absurd hid (by decide)

end Tracker

end Bindery
