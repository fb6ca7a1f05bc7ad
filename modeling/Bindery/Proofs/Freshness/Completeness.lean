import Bindery.Proofs.FileSystem.SameFile
import Bindery.Proofs.Freshness

/-!
# Sources that have not changed are fresh

A stamp depends on the second in which a file was last modified and on its contents alone (`Source.stamp_congr`), so
a record is the same in two file systems that agree on these.  A loaded source whose file is there agrees with its
own stamp, unless that stamp is blank (`Tracker.staleness?_stamp`), and a stamp is blank for a file of second zero,
too.  So sources that have not changed are fresh exactly if none of them was last modified in second zero
(`Tracker.unchanged_sources_are_fresh_iff`).
-/

namespace Bindery

open FileSystem

variable {t t₁ t₂ : Tracker} {fs fs₁ fs₂ : FileSystem} {s : Source} {p : Path} {sources sources₁ sources₂ : List Source}

/-! ### Stamps -/

namespace Source

theorem exists_timestamp? (h : fs.pathExists p = true) : ∃ time, timestamp? fs p = some time := by
  obtain ⟨r, node, hs⟩ := pathExists_eq_true.1 h
  exact ⟨_, by unfold timestamp? lastModified?; rw [hs]; rfl⟩

theorem pathExists_of_isFile (h : fs.isFile p = true) : fs.pathExists p = true := pathExists_iff.2 (.inl h)

/-- A stamp depends on nothing but the second and the contents of the source's file. -/
theorem stamp_congr (h : ∀ p, s.path = some p → fs₂.lastModified? p = fs₁.lastModified? p ∧ fs₂.read p = fs₁.read p) :
    s.stamp fs₂ = s.stamp fs₁ := by
  unfold stamp
  cases hp : s.path with
  | none => rfl
  | some p =>
    obtain ⟨ht, hr⟩ := h p hp
    have htime : timestamp? fs₂ p = timestamp? fs₁ p := congrArg _ ht
    have hsum : Checksum.ofFile fs₂ p = Checksum.ofFile fs₁ p := by rw [Checksum.ofFile_eq, Checksum.ofFile_eq, hr]
    dsimp only
    rw [htime, hsum]

/-- The stamp of a loaded source whose file is there is blank for second zero alone. -/
theorem isBlank_stamp_iff (hl : s.loaded = true) (hp : s.path = some p) (hex : fs.pathExists p = true) :
    (s.stamp fs).isBlank = true ↔ timestamp? fs p = some 0 := by
  obtain ⟨time, ht⟩ := exists_timestamp? hex
  unfold stamp Stamp.isBlank
  rw [hp, hl]
  simp [ht]

end Source

namespace Tracker

/-! ### Comparisons -/

/-- A loaded source whose file is there agrees with its own stamp, unless that is blank. -/
theorem staleness?_stamp (hl : s.loaded = true) (hp : s.path = some p) (hex : fs.pathExists p = true) :
    t.staleness? fs (s.stamp fs) s = none ↔ Source.timestamp? fs p ≠ some 0 := by
  have hblank := Source.isBlank_stamp_iff hl hp hex
  have hexisting : s.existingPath? fs = some p := by
    unfold Source.existingPath?
    rw [hp]
    simp [Option.filter, hex]
  unfold staleness?
  rw [hexisting]
  simp only [hl, hp, Option.isNone_some, Bool.and_false, Bool.not_true, Bool.false_eq_true, if_false]
  cases hb : (s.stamp fs).isBlank with
  | true => simpa using hblank.1 hb
  | false =>
    obtain ⟨p', time, hp', -, ht, hstamp⟩ := Source.stamp_eq hb
    obtain rfl : p = p' := Option.some.inj (hp.symm.trans hp')
    have hne : time ≠ 0 := by
      rintro rfl
      rw [hblank.2 ht] at hb
      cases hb
    -- the time and the checksum are compared with themselves
    simp [hstamp, ht, hne]

/-- A source that is not loaded and has no file agrees with a blank stamp. -/
theorem staleness?_blank (hl : s.loaded = false) (hp : s.path = none) : t.staleness? fs .blank s = none := by
  unfold staleness? Source.existingPath?
  simp [hl, hp, Stamp.blank, Stamp.isBlank]

/-- A loaded source whose file is there disagrees with a blank stamp. -/
theorem staleness?_of_isBlank {stamp : Stamp} (hl : s.loaded = true) (hp : s.path = some p)
    (hex : fs.pathExists p = true) (hb : stamp.isBlank = true) : t.staleness? fs stamp s ≠ none := by
  unfold staleness? Source.existingPath?
  simp [hl, hp, Option.filter, hex, hb]

/-! ### Records -/

theorem record_congr (h : ∀ s ∈ sources, s.stamp fs₂ = s.stamp fs₁) : t.record fs₂ sources = t.record fs₁ sources := by
  unfold record
  exact List.foldl_ext _ _ _ fun r s hs => by rw [h s hs]

/-- Sources are fresh by a record of other sources if the ids are the same, and each agrees with the stamp of its id. -/
theorem isFresh_record_iff
    (hagree : ∀ s ∈ sources₁, ∀ s' ∈ sources₁, s.id = s'.id → s.stamp fs₁ = s'.stamp fs₁) :
    t₂.isFresh fs₂ (t₁.record fs₁ sources₁) sources₂ = true ↔
      (∀ id, id ∈ sources₁.map Source.id ↔ id ∈ sources₂.map Source.id) ∧
        (∀ s₁ ∈ sources₁, ∀ s₂ ∈ sources₂, s₁.id = s₂.id → t₂.staleness? fs₂ (s₁.stamp fs₁) s₂ = none) ∧
        Version.order t₁.engineVersion t₂.engineVersion ≠ .gt := by
  rw [isFresh_iff, engineVersion_record]
  constructor
  · rintro ⟨hkeys, hfresh, horder⟩
    refine ⟨fun id => ⟨fun hid => ?_, fun hid => ?_⟩, fun s₁ hs₁ s₂ hs₂ he => ?_, horder⟩
    · obtain ⟨s₁, hs₁, rfl⟩ := List.mem_map.1 hid
      exact hkeys _ (SortedMap.mem_keys_of_get? ((get?_record_of_agree hagree).2 ⟨s₁, hs₁, rfl, rfl⟩))
    · obtain ⟨s₂, hs₂, rfl⟩ := List.mem_map.1 hid
      obtain ⟨stamp, hget, -⟩ := hfresh s₂ hs₂
      obtain ⟨s₁, hs₁, he, -⟩ := (get?_record_of_agree hagree).1 hget
      exact he ▸ List.mem_map_of_mem hs₁
    · obtain ⟨stamp, hget, hnone⟩ := hfresh s₂ hs₂
      obtain ⟨s', hs', he', rfl⟩ := (get?_record_of_agree hagree).1 hget
      rw [hagree s₁ hs₁ s' hs' (he.trans he'.symm)]
      exact hnone
  · rintro ⟨hids, hnone, horder⟩
    refine ⟨fun id hkey => ?_, fun s₂ hs₂ => ?_, horder⟩
    · obtain ⟨stamp, hget⟩ := SortedMap.get?_of_mem_keys hkey
      obtain ⟨s₁, hs₁, rfl, -⟩ := (get?_record_of_agree hagree).1 hget
      exact (hids _).1 (List.mem_map_of_mem hs₁)
    · obtain ⟨s₁, hs₁, he⟩ := List.mem_map.1 ((hids _).2 (List.mem_map_of_mem hs₂))
      exact ⟨_, (get?_record_of_agree hagree).2 ⟨s₁, hs₁, he, rfl⟩, hnone s₁ hs₁ s₂ hs₂ he⟩

/-- Ids are fresh by a record of other ids, which may be in another order and repeated, if they are the same, and
the source that each has now agrees with the stamp of the one that it had. -/
theorem isFresh_record_map_iff {ids₁ ids₂ : List String} {f g : String → Source} (hf : ∀ id, (f id).id = id)
    (hg : ∀ id, (g id).id = id) :
    t₂.isFresh fs₂ (t₁.record fs₁ (ids₁.map f)) (ids₂.map g) = true ↔
      (∀ id, id ∈ ids₁ ↔ id ∈ ids₂) ∧ (∀ id ∈ ids₂, t₂.staleness? fs₂ ((f id).stamp fs₁) (g id) = none) ∧
        Version.order t₁.engineVersion t₂.engineVersion ≠ .gt := by
  have hmap {h : String → Source} (hh : ∀ id, (h id).id = id) (ids : List String) :
      (ids.map h).map Source.id = ids := by
    rw [List.map_map, show Source.id ∘ h = id from funext hh, List.map_id]
  rw [isFresh_record_iff, hmap hf, hmap hg]
  · refine and_congr_right fun hids => and_congr_left fun _ => ?_
    rw [List.forall_mem_map]
    constructor
    · intro h id hid
      exact h id ((hids id).2 hid) _ (List.mem_map_of_mem hid) ((hf id).trans (hg id).symm)
    · rintro h id hid s hs he
      obtain ⟨id', hid', rfl⟩ := List.mem_map.1 hs
      obtain rfl : id = id' := (hf id).symm.trans (he.trans (hg id'))
      exact h id hid'
  · rintro s hs s' hs' he
    obtain ⟨id, -, rfl⟩ := List.mem_map.1 hs
    obtain ⟨id', -, rfl⟩ := List.mem_map.1 hs'
    obtain rfl : id = id' := (hf id).symm.trans (he.trans (hf id'))
    rfl

/-! ### Two file systems -/

/-- Loaded sources whose files are there in two file systems, with the same time in whole seconds and the same
contents: what was recorded in one of them is fresh in the other, unless a file was last modified in second zero. -/
theorem unchanged_sources_are_fresh_iff (hids : (sources.map Source.id).Nodup)
    (hsame : ∀ s ∈ sources, s.loaded = true ∧ ∃ p, s.path = some p ∧ fs₁.isFile p = true ∧ fs₂.isFile p = true ∧
      fs₂.lastModified? p = fs₁.lastModified? p ∧ fs₂.read p = fs₁.read p) :
    t.isFresh fs₂ (t.record fs₁ sources) sources = true ↔
      ∀ s ∈ sources, ∀ p, s.path = some p → Source.timestamp? fs₁ p ≠ some 0 := by
  have hstamp (s : Source) (hs : s ∈ sources) : s.stamp fs₁ = s.stamp fs₂ := by
    obtain ⟨-, p, hp, -, -, ht, hr⟩ := hsame s hs
    refine Source.stamp_congr fun q hq => ?_
    obtain rfl : p = q := Option.some.inj (hp.symm.trans hq)
    exact ⟨ht.symm, hr.symm⟩
  have hagree (s : Source) (hs : s ∈ sources) (s' : Source) (hs' : s' ∈ sources) (he : s.id = s'.id) : s = s' :=
    List.inj_on_of_nodup_map hids hs hs' he
  rw [record_congr hstamp, isFresh_record_iff fun s hs s' hs' he => by rw [hagree s hs s' hs' he]]
  have hiff : (∀ s ∈ sources, ∀ s' ∈ sources, s.id = s'.id → t.staleness? fs₂ (s.stamp fs₂) s' = none) ↔
      ∀ s ∈ sources, t.staleness? fs₂ (s.stamp fs₂) s = none := by
    constructor
    · exact fun h s hs => h s hs s hs rfl
    · intro h s hs s' hs' he
      rw [← hagree s hs s' hs' he]
      exact h s hs
  rw [hiff, Version.order_self]
  simp only [true_and, iff_self, implies_true, ne_eq, reduceCtorEq, not_false_eq_true, and_true]
  refine forall₂_congr fun s hs => ?_
  obtain ⟨hl, p, hp, -, hfile, ht, -⟩ := hsame s hs
  have htime : Source.timestamp? fs₂ p = Source.timestamp? fs₁ p := congrArg _ ht
  rw [staleness?_stamp hl hp (Source.pathExists_of_isFile hfile), htime]
  constructor
  · intro h q hq
    obtain rfl : p = q := Option.some.inj (hp.symm.trans hq)
    exact h
  · exact fun h => h p hp

/-- A file is removed, and put back with the time of half a second later. -/
theorem restored_file_is_fresh :
    ∃ fs₁ fs₂ : FileSystem,
      fs₁.node? [Text.encode "a"] = some (.file 0) ∧ fs₂.node? [Text.encode "a"] = some (.file 1) ∧
      Tracker.isFresh ⟨"1", "", true⟩ fs₂ (Tracker.record ⟨"1", "", true⟩ fs₁ [⟨"a", some (.ofString "a"), true⟩])
        [⟨"a", some (.ofString "a"), true⟩] = true := by
  let fs₁ := (bare ⟨0⟩).addFile [Text.encode "a"] ⟨.ofList [1, 2, 3], ⟨5000000000⟩⟩
  let fs₂ := (fs₁.removeWhere (· = [Text.encode "a"])).addFile [Text.encode "a"] ⟨.ofList [1, 2, 3], ⟨5500000000⟩⟩
  refine ⟨fs₁, fs₂, by decide +kernel, by decide +kernel, ?_⟩
  refine (unchanged_sources_are_fresh_iff (by decide) ?_).2 ?_
  · intro s hs
    obtain rfl := List.mem_singleton.1 hs
    exact ⟨rfl, _, rfl, by decide +kernel, by decide +kernel, by decide +kernel, by decide +kernel⟩
  · intro s hs p hp
    obtain rfl := List.mem_singleton.1 hs
    obtain rfl := Option.some.inj hp
    decide +kernel

/-- The stamp of a file of second zero says that nothing was built. -/
theorem file_of_second_zero_is_stale :
    ∃ fs : FileSystem, ∃ t : Tracker, fs.isFile (.ofString "a") = true ∧
      t.isFresh fs (t.record fs [⟨"a", some (.ofString "a"), true⟩]) [⟨"a", some (.ofString "a"), true⟩] = false := by
  refine ⟨(bare ⟨0⟩).addFile [Text.encode "a"] ⟨.ofList [118, 49], ⟨0⟩⟩, ⟨"0.1.0", "", true⟩, ?_, ?_⟩
  · decide +kernel
  · decide +kernel

end Tracker

end Bindery
