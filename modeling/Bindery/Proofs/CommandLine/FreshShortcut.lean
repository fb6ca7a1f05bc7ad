import Bindery.Proofs.CommandLine.Plans

/-!
# A fresh artifact is as one built now

A source that agrees with the stamp it had when it was compiled has the text that it had then, if checksums tell the
contents of files apart, and it was not of second zero when it was compiled (`Tracker.text?_eq_of_staleness?`).  So the
table of an artifact that is found fresh is made of the texts that the sources have now, in the order of the ids that
it was built from (`fresh_artifact_has_present_texts`).  Another order of the same ids, and repetitions of them, go
unnoticed, and so does that a source of second zero was removed (`fresh_artifact_can_differ_from_rebuilt`).
-/

namespace Bindery

open FileSystem

/-! ### The texts of sources that have not changed -/

section Texts

variable {t : Tracker} {fs₁ fs₂ : FileSystem} {s₁ s₂ : Source}

/-- Two files have the same contents if they have the same checksum. -/
def FileSystem.ToldApart (fs₁ : FileSystem) (p₁ : Path) (fs₂ : FileSystem) (p₂ : Path) : Prop :=
  ∀ bytes₁ bytes₂, fs₁.read p₁ = .ok bytes₁ → fs₂.read p₂ = .ok bytes₂ →
    Checksum.crc32 bytes₂ = Checksum.crc32 bytes₁ → bytes₂ = bytes₁

/-- A source that agrees with the stamp that was taken once its text was asked for has the same text now, or has none
as it had none then. -/
theorem Tracker.text?_eq_of_staleness? (hv : t.verifyChecksums = true)
    (hzero : ∀ p, s₁.path = some p → (s₁.text? fs₁).isSome = true → Source.timestamp? fs₁ p ≠ some 0)
    (hcrc : ∀ p₁ p₂, s₁.path = some p₁ → s₂.path = some p₂ → ToldApart fs₁ p₁ fs₂ p₂)
    (h : t.staleness? fs₂ ((s₁.afterReading fs₁).stamp fs₁) s₂ = none) : s₂.text? fs₂ = s₁.text? fs₁ := by
  rcases staleness?_eq_none h with ⟨hblank, habsent⟩ | ⟨p, hp, hex, hl, hblank, htime, hsum⟩
  · -- nothing was built, for there was no text
    rw [Source.text?_of_absent habsent]
    symm
    by_contra hne
    obtain ⟨text, ht⟩ := Option.ne_none_iff_exists'.1 hne
    obtain ⟨p, hp, hl, htext⟩ := Source.text?_eq_some ht
    have hloaded : (s₁.afterReading fs₁).loaded = true := by simp [Source.afterReading, hl, ht]
    have hpath : (s₁.afterReading fs₁).path = some p := hp
    refine hzero p hp (by rw [ht]; rfl) ?_
    exact (Source.isBlank_stamp_iff hloaded hpath (pathExists_of_plainText? htext)).1 hblank
  · obtain ⟨⟨hloaded, -⟩, p₁, p₂, -, hp₁, hp₂, -, -, -, -, -, hcontents⟩ :=
      unchanged_of_staleness? hv hp hex hl hblank htime hsum
    rw [Source.path_afterReading] at hp₁
    -- what was loaded and read had a text
    obtain ⟨text, ht⟩ := Source.text?_of_loaded_afterReading hp₁ hloaded
    obtain ⟨p₁', hp₁', -, htext⟩ := Source.text?_eq_some ht
    obtain rfl : p₁ = p₁' := Option.some.inj (hp₁.symm.trans hp₁')
    obtain ⟨bytes₁, hread₁⟩ := read_of_plainText? htext
    obtain ⟨bytes₂, hread₂, hsame⟩ := hcontents bytes₁ hread₁
    obtain rfl := hcrc p₁ p₂ hp₁ hp₂ bytes₁ bytes₂ hread₁ hread₂ hsame
    have htext₂ : s₂.text? fs₂ = fs₂.plainText? p₂ := by
      unfold Source.text?
      rw [hp₂, hl]
    rw [htext₂, ht, ← htext]
    exact plainText?_congr (hread₂.trans hread₁.symm)

end Texts

/-! ### Runs -/

namespace CommandLine

variable {fs₁ fs₂ : FileSystem} {time₁ : String} {i₁ i₂ : Invocation} {kind₁ kind₂ : String} {ids₁ ids₂ : List String}
  {output₁ output₂ : Option String} {force₁ : Bool} {plan₁ plan₂ : Plan}

/-- An artifact was built, and its bytes are at the path of another plan, which finds it fresh.  Both are of the same
ids, and the artifact's table is made of the texts that these have now, in the order of the ids it was built from; if
it is built again, then in the order of the other plan's. -/
theorem fresh_artifact_has_present_texts
    (hplan₁ : Plan.make fs₁ i₁.configuration kind₁ ids₁ output₁ = .ok plan₁) (hc : Compiles plan₁ fs₁ force₁)
    (hexit : (runBuild fs₁ time₁ i₁ kind₁ ids₁ output₁ force₁).exitCode = 0)
    (hplan₂ : Plan.make fs₂ i₂.configuration kind₂ ids₂ output₂ = .ok plan₂)
    (hread : fs₂.read plan₂.artifact = (runBuild fs₁ time₁ i₁ kind₁ ids₁ output₁ force₁).fs.read plan₁.artifact)
    (hverify : plan₂.configuration.verifyChecksums = true) (hfresh : ¬ Compiles plan₂ fs₂ false)
    (hzero : ∀ id ∈ ids₁, ∀ p, plan₁.located? fs₁ id = some p → (fs₁.plainText? p).isSome = true →
      Source.timestamp? fs₁ p ≠ some 0)
    (hcrc : ∀ id ∈ ids₁, ∀ p₁ p₂, plan₁.located? fs₁ id = some p₁ → plan₂.located? fs₂ id = some p₂ →
      ToldApart fs₁ p₁ fs₂ p₂) :
    (∀ id, id ∈ ids₁ ↔ id ∈ ids₂) ∧
      StringTable.StoredAt fs₂ plan₂.artifact (plan₂.table fs₂ ids₁) ∧
      ∀ time, (runBuild fs₂ time i₂ kind₂ ids₂ output₂ true).exitCode = 0 →
        StringTable.StoredAt (runBuild fs₂ time i₂ kind₂ ids₂ output₂ true).fs plan₂.artifact
          (plan₂.table fs₂ ids₂) := by
  obtain ⟨o, hcompile⟩ := compile_of_runBuild hplan₁ hc hexit
  have hat := (Job.compiledAt_of_compile hcompile).of_read hread
  obtain ⟨m, hm, hrecord⟩ := hat.metadataOf
  have hfresh' : (plan₂.job fs₂).isFresh fs₂ = true := by
    by_contra h
    exact hfresh (.inr (by simpa using h))
  rw [Job.isFresh_eq hm, hrecord, Plan.isFresh_record_iff, Plan.ids_make hplan₁, Plan.ids_make hplan₂] at hfresh'
  obtain ⟨hids, hnone, -⟩ := hfresh'
  refine ⟨hids, ?_, fun time => table_of_runBuild hplan₂ (.inl rfl)⟩
  have htext (id : String) (hid : id ∈ ids₁) : plan₁.text? fs₁ id = plan₂.text? fs₂ id := by
    have h := Tracker.text?_eq_of_staleness? hverify (fun p hp ht => hzero id hid p hp ?_) (hcrc id hid)
      (hnone id ((hids id).1 hid))
    · rwa [Plan.text?_locate, Plan.text?_locate, eq_comm] at h
    · rwa [Plan.text?_locate, Plan.text?, show plan₁.located? fs₁ id = some p from hp] at ht
  have htable := hat.table
  rw [Plan.entries_job, Plan.ids_make hplan₁] at htable
  rwa [show plan₂.table fs₂ ids₁ = plan₁.table fs₁ ids₁ from List.filterMap_congr fun id hid => by rw [htext id hid]]

/-- A directory with a configuration and two sources, the second of which was last modified at some time. -/
def twoSources (modified : Time.Instant) : FileSystem :=
  let configuration := "paths.user_data_dir=\".\"\nresource_kinds=[\x7bname=\"dict\"\x7d]"
  (((bare ⟨0⟩).addFile [Text.encode Configuration.fileName] ⟨.ofList (Text.encode configuration), ⟨0⟩⟩).addFile
    [Text.encode "luna"] ⟨.ofList (Text.encode "v1"), .ofSeconds 5⟩).addFile
    [Text.encode "sol"] ⟨.ofList (Text.encode "v2"), modified⟩

/-- The command that builds sources into an artifact of one name. -/
def into (ids : List String) (force : Bool) : Invocation := ⟨false, false, none, .build "dict" ids (some "x") force⟩

def buildInto (fs : FileSystem) (ids : List String) (force : Bool) : Outcome :=
  runBuild fs "now" (into ids force) "dict" ids (some "x") force

/-- An id is repeated once the artifact was built. -/
theorem artifact_of_repeated_id_is_fresh :
    let fs := (buildInto (twoSources ⟨0⟩) ["luna"] false).fs
    StringTable.StoredAt fs (.ofString "x") [("luna", "v1")] ∧
      StringTable.StoredAt (buildInto fs ["luna", "luna"] true).fs (.ofString "x")
        [("luna", "v1"), ("luna", "v1")] := by
  intro fs
  obtain ⟨⟨plan₁, hplan₁, hartifact₁, hstale, hlocated₁, htime, hbytes₁⟩,
      ⟨plan₂, hplan₂, hartifact₂, hverify, hfresh, hlocated₂, hbytes₂, htable₁, htable₂⟩, hexit₁, hexit₂⟩ :
      (∃ plan, Plan.make (twoSources ⟨0⟩) none "dict" ["luna"] (some "x") = .ok plan ∧
        plan.artifact = .ofString "x" ∧
        (plan.job (twoSources ⟨0⟩)).isFresh (twoSources ⟨0⟩) = false ∧
        plan.located? (twoSources ⟨0⟩) "luna" = some (.ofString "/./luna") ∧
        Source.timestamp? (twoSources ⟨0⟩) (.ofString "/./luna") = some 5 ∧
        (twoSources ⟨0⟩).read (.ofString "/./luna") = .ok (Text.encode "v1")) ∧
      (∃ plan,
        Plan.make fs (into ["luna", "luna"] true).configuration "dict" ["luna", "luna"] (some "x") = .ok plan ∧
        plan.artifact = .ofString "x" ∧ plan.configuration.verifyChecksums = true ∧
        (plan.job fs).isFresh fs = true ∧ plan.located? fs "luna" = some (.ofString "/./luna") ∧
        fs.read (.ofString "/./luna") = .ok (Text.encode "v1") ∧ plan.table fs ["luna"] = [("luna", "v1")] ∧
        plan.table fs ["luna", "luna"] = [("luna", "v1"), ("luna", "v1")]) ∧
      (buildInto (twoSources ⟨0⟩) ["luna"] false).exitCode = 0 ∧
      (buildInto fs ["luna", "luna"] true).exitCode = 0 := by
    decide +kernel
  have hread : fs.read plan₂.artifact = fs.read plan₁.artifact := by rw [hartifact₁, hartifact₂]
  have hnot : ¬ Compiles plan₂ fs false := by
    rintro (h | h)
    · cases h
    · rw [hfresh] at h
      cases h
  obtain ⟨-, hstored, hforced⟩ := fresh_artifact_has_present_texts hplan₁ (.inr hstale) hexit₁ hplan₂ hread hverify hnot
    (fun id hid p hp _ => by
      obtain rfl := List.mem_singleton.1 hid
      obtain rfl := Option.some.inj (hlocated₁.symm.trans hp)
      rw [htime]
      decide)
    (fun id hid p₁ p₂ hp₁ hp₂ bytes₁ bytes₂ hr₁ hr₂ _ => by
      obtain rfl := List.mem_singleton.1 hid
      obtain rfl := Option.some.inj (hlocated₁.symm.trans hp₁)
      obtain rfl := Option.some.inj (hlocated₂.symm.trans hp₂)
      exact Except.ok.inj (hr₂.symm.trans (hbytes₂.trans (hbytes₁.symm.trans hr₁))))
  rw [hartifact₂, htable₁] at hstored
  refine ⟨hstored, ?_⟩
  have h := hforced "now" hexit₂
  rwa [hartifact₂, htable₂] at h

/-- Ids are built in another order, or a source of second zero was removed. -/
theorem fresh_artifact_can_differ_from_rebuilt :
    (let fs := (buildInto (twoSources (.ofSeconds 5)) ["luna", "sol"] false).fs;
      (Plan.make fs none "dict" ["sol", "luna"] (some "x")).map (·.configuration.verifyChecksums) = .ok true ∧
      (buildInto fs ["sol", "luna"] false).allMessages = "     Fresh x\n" ∧
      StringTable.StoredAt fs (.ofString "x") [("luna", "v1"), ("sol", "v2")] ∧
      StringTable.StoredAt (buildInto fs ["sol", "luna"] true).fs (.ofString "x") [("sol", "v2"), ("luna", "v1")]) ∧
    let fs := (buildInto (twoSources ⟨0⟩) ["luna", "sol"] false).fs.removeWhere (· = [Text.encode "sol"]);
    (Plan.make fs none "dict" ["luna", "sol"] (some "x")).map (·.configuration.verifyChecksums) = .ok true ∧
      (buildInto fs ["luna", "sol"] false).allMessages = "     Fresh x\n" ∧
      StringTable.StoredAt fs (.ofString "x") [("luna", "v1"), ("sol", "v2")] ∧
      StringTable.StoredAt (buildInto fs ["luna", "sol"] true).fs (.ofString "x") [("luna", "v1")] := by
  decide +kernel

end CommandLine

end Bindery
