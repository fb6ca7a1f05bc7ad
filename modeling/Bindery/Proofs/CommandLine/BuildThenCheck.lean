import Bindery.Proofs.CommandLine.Relocation
import Bindery.Proofs.Freshness.Completeness

/-!
# Checking after building

A build that compiled leaves the texts of the sources in the artifact, and if it kept the sources, and nothing new is
where they are looked for, then a check right after it locates the same sources again and compares them with their
own stamps.  So it finds the artifact fresh exactly if every source that was located is one that can be tracked:
plain text, and not of second zero (`build_then_check`).

A path through a directory that the build makes, and back out of it by `..`, opens with that directory, and a
configuration that lies where the staging file does is gone afterwards; in both cases the check looks for other
things than the build (`check_can_disagree_with_build`).
-/

namespace Bindery

open FileSystem

/-! ### Sources compared with their own stamps -/

/-- A loaded source agrees with its stamp, taken after its text was asked for, if it has one and its file is not of
second zero. -/
theorem Tracker.staleness?_afterReading {t : Tracker} {fs fs' : FileSystem} {id : String} {p : Path}
    (h : SameFile fs fs' p) :
    t.staleness? fs' ((Source.afterReading fs ⟨id, some p, true⟩).stamp fs) ⟨id, some p, true⟩ = none ↔
      (fs.plainText? p).isSome = true ∧ Source.timestamp? fs p ≠ some 0 := by
  have hex : fs'.pathExists p = true := by
    obtain ⟨r, n, -, hstat, -⟩ := h
    exact pathExists_eq_true.2 ⟨_, _, hstat⟩
  cases ht : fs.plainText? p with
  | none =>
    have hread : Source.afterReading fs ⟨id, some p, true⟩ = ⟨id, some p, false⟩ := by
      simp [Source.afterReading, Source.text?, ht]
    have hstale := staleness?_of_isBlank (t := t) (s := ⟨id, some p, true⟩) rfl rfl hex
      (show (Source.stamp fs ⟨id, some p, false⟩).isBlank = true from rfl)
    rw [hread]
    simp [hstale]
  | some text =>
    have hread : Source.afterReading fs ⟨id, some p, true⟩ = ⟨id, some p, true⟩ := by
      simp [Source.afterReading, Source.text?, ht]
    have hstamp : Source.stamp fs ⟨id, some p, true⟩ = Source.stamp fs' ⟨id, some p, true⟩ := by
      refine Source.stamp_congr fun q hq => ?_
      obtain rfl := Option.some.inj hq
      exact ⟨h.lastModified?_eq.symm, h.read_eq.symm⟩
    have htime : Source.timestamp? fs' p = Source.timestamp? fs p := congrArg _ h.lastModified?_eq
    rw [hread, hstamp, staleness?_stamp rfl rfl hex, htime]
    simp

namespace CommandLine

variable {fs : FileSystem} {time : String} {i : Invocation} {kind : String} {ids : List String}
  {output : Option String} {force : Bool} {plan : Plan}

namespace Plan

/-- Every source that is found is plain text, and was not last modified in second zero. -/
def Tracked (p : Plan) (fs : FileSystem) : Prop :=
  ∀ id ∈ p.ids, ∀ path, p.located? fs id = some path →
    (fs.plainText? path).isSome = true ∧ Source.timestamp? fs path ≠ some 0

/-- The paths where sources are looked for lead neither to the artifact nor to its staging file, and to nothing that
they did not lead to before. -/
structure Apart (p : Plan) (fs fs' : FileSystem) : Prop where
  artifact : ∀ id ∈ p.ids, ∀ c ∈ p.locator.candidates id, fs'.route? c ≠ fs'.route? p.artifact
  staging : ∀ id ∈ p.ids, ∀ c ∈ p.locator.candidates id, fs'.route? c ≠ fs'.route? (Builder.stagingPath p.artifact)
  new : ∀ id ∈ p.ids, ∀ c ∈ p.locator.candidates id, fs.pathExists c = false → fs'.pathExists c = false

end Plan

/-! ### After a build -/

section After

variable {fs' : FileSystem}

/-- If the sources of a plan are located again, at the same files, then a record of them finds them fresh exactly if
all of them can be tracked. -/
theorem Plan.isFresh_iff {t₁ t₂ : Tracker} (hversion : t₁.engineVersion = t₂.engineVersion)
    (hlocate : ∀ id ∈ plan.ids, Source.locate fs' (.fallback plan.locator) id =
      Source.locate fs (.fallback plan.locator) id)
    (hsame : ∀ id ∈ plan.ids, ∀ path, plan.located? fs id = some path → SameFile fs fs' path) :
    t₂.isFresh fs' (t₁.record fs ((plan.job fs).sourcesRead fs)) (plan.job fs').sources = true ↔ plan.Tracked fs := by
  rw [Plan.isFresh_record_iff, hversion, Version.order_self]
  simp only [iff_self, implies_true, ne_eq, reduceCtorEq, not_false_eq_true, and_true, true_and]
  refine forall₂_congr fun id hid => ?_
  rw [hlocate id hid]
  cases hp : plan.located? fs id with
  | none =>
    rw [Source.locate_eq_none hp]
    have hblank : t₂.staleness? fs' ((Source.afterReading fs ⟨id, none, false⟩).stamp fs) ⟨id, none, false⟩ = none :=
      Tracker.staleness?_blank rfl rfl
    simp [hblank]
  | some path =>
    rw [(Source.locate_eq_some hp).1, Tracker.staleness?_afterReading (hsame id hid path hp)]
    simp

/-- The staging path leads to a name that ends as staging files do. -/
private theorem suffix_of_stagingPath {d : Path} {dir : Route} {name : Name}
    (h : fs.route? (Builder.stagingPath d) = some (dir ++ [name])) : Text.encode ".tmp" <:+ name := by
  obtain ⟨spot, hl, hr⟩ := route?_eq_some.1 h
  obtain ⟨dir', name', rfl, -⟩ := locate_append (by decide) (by decide) hl
  obtain ⟨-, hname⟩ := List.append_inj' hr rfl
  exact ⟨name', by simpa using hname⟩

/-- A build spares configurations, if the artifact is not named like one. -/
private theorem spares_configuration (hplan : Plan.make fs i.configuration kind ids output = .ok plan)
    (hexit : (runBuild fs time i kind ids output force).exitCode = 0)
    (hname : (stepsOf plan.artifact).getLast? ≠ some Configuration.fileBytes) (r : Route) :
    Spares plan fs force (runBuild fs time i kind ids output force) (r ++ [Configuration.fileBytes]) := by
  intro hc
  obtain ⟨result, hcompile⟩ := compile_of_runBuild hplan hc hexit
  obtain ⟨dir, name, hl⟩ := Job.locate_of_compile hcompile
  have hl : (runBuild fs time i kind ids output force).fs.locate plan.artifact = .ok (.entry dir name false) := hl
  refine ⟨fun h => ?_, .inl fun h => ?_⟩
  · have := suffix_of_stagingPath h
    revert this
    decide
  · rw [route?_eq_some.2 ⟨_, hl, rfl⟩] at h
    obtain ⟨-, hfile⟩ := List.append_inj' (Option.some.inj h) rfl
    obtain rfl : name = Configuration.fileBytes := by simpa using hfile
    exact hname (getLast?_stepsOf hl)

end After

/-- A build that compiled, and a check after it.  The table has the sources that are plain text, in the order of the
ids.  The check finds the artifact fresh if every source that was found can be tracked, and then another build has
nothing to do; else it finds the artifact stale. -/
theorem build_then_check (hwd : fs.HasWorkingDirectory)
    (hplan : Plan.make fs i.configuration kind ids output = .ok plan) (hc : Compiles plan fs force)
    (hexit : (runBuild fs time i kind ids output force).exitCode = 0)
    (hname : (stepsOf plan.artifact).getLast? ≠ some Configuration.fileBytes)
    (hapart : plan.Apart fs (runBuild fs time i kind ids output force).fs)
    (hnamed : ∀ named, i.configuration = some named →
      (runBuild fs time i kind ids output force).fs.route? (.ofString named) ≠
        (runBuild fs time i kind ids output force).fs.route? (Builder.stagingPath plan.artifact)) :
    let fs' := (runBuild fs time i kind ids output force).fs
    StringTable.StoredAt fs' plan.artifact (plan.table fs ids) ∧
      (plan.Tracked fs → (runCheck fs' i kind ids output).exitCode = 0 ∧
        ∀ time', (runBuild fs' time' i kind ids output false).exitCode = 0 ∧
          (runBuild fs' time' i kind ids output false).fs = fs') ∧
      (¬ plan.Tracked fs → (runCheck fs' i kind ids output).exitCode = staleCode) := by
  intro fs'
  obtain ⟨result, hcompile⟩ := compile_of_runBuild hplan hc hexit
  have hat : (plan.job fs).CompiledAt fs fs' plan.artifact := Job.compiledAt_of_compile hcompile
  have hk : KeepsFiles (Spares plan fs force (runBuild fs time i kind ids output force)) fs fs' :=
    runBuild_keepsFiles hplan
  -- the sources are spared, and located again
  have hspares (id : String) (hid : id ∈ plan.ids) (c : Path) (hcand : c ∈ plan.locator.candidates id) (r : Route)
      (hr : fs'.route? c = some r) : Spares plan fs force (runBuild fs time i kind ids output force) r := fun _ =>
    ⟨fun h => hapart.staging id hid c hcand (hr.trans h.symm),
      .inl fun h => hapart.artifact id hid c hcand (hr.trans h.symm)⟩
  have hlocate (id : String) (hid : id ∈ plan.ids) := Source.locate_eq hk (hspares id hid) (hapart.new id hid)
  have hsame (id : String) (hid : id ∈ plan.ids) (path : Path) (hp : plan.located? fs id = some path) :
      SameFile fs fs' path := by
    obtain ⟨r, file, hs⟩ := isFile_eq_true.1 (Source.locate_eq_some hp).2
    have hr := route?_mono hk.toKeepsDirectories (route?_of_stat hs).1
    exact hk.sameFile hs (hspares id hid path (Source.mem_candidates_of_locate hp) _ hr)
  -- so is the configuration
  have hplan' : Plan.make fs' i.configuration kind ids output = .ok plan := by
    refine Plan.make_eq hk (spares_configuration hplan hexit hname) hwd (fun named r file hi hs => ?_) hplan
    obtain ⟨hroute, hn⟩ := route?_of_stat hs
    have hr := route?_mono hk.toKeepsDirectories hroute
    by_cases ha : fs'.route? plan.artifact = some r
    · -- the artifact took its place
      obtain ⟨-, r', file', -, -, -, hs', -⟩ := hat
      obtain ⟨hroute', hn'⟩ := route?_of_stat hs'
      obtain rfl : r' = r := Option.some.inj (hroute'.symm.trans ha)
      exact ⟨file', hn'⟩
    · exact ⟨file, (hk.node r (fun _ => ⟨fun h => hnamed named hi (hr.trans h.symm), .inl ha⟩) file).2 hn⟩
  obtain ⟨m, hm, hrecord⟩ := hat.metadataOf
  have hfresh : (plan.job fs').tracker.isFresh fs' m.record (plan.job fs').sources = true ↔ plan.Tracked fs := by
    rw [hrecord]
    exact Plan.isFresh_iff rfl hlocate hsame
  have hcheck := runCheck_eq hplan' hm
  refine ⟨table_of_runBuild hplan hc hexit, fun ht => ⟨?_, fun time' => runBuild_of_fresh hplan' ?_⟩, fun ht => ?_⟩
  · rw [hcheck, if_pos (hfresh.2 ht)]
  · rw [Job.isFresh_eq hm]
    exact hfresh.2 ht
  · rw [hcheck, if_neg (mt hfresh.1 ht)]

/-- A source that is named twice is there twice, and one that is not found is not there. -/
theorem check_of_repeated_and_missing_ids :
    let fs := oneSource "." "build" ".txt"
    let i : Invocation := ⟨true, false, none, .build "dict" ["luna", "sol", "luna"] none false⟩
    let fs' := (runBuild fs "now" i "dict" ["luna", "sol", "luna"] none false).fs
    StringTable.StoredAt fs' (.ofString "/./build/luna.dict.bin") [("luna", "v1"), ("luna", "v1")] ∧
      (runCheck fs' i "dict" ["luna", "sol", "luna"] none).exitCode = 0 := by
  intro fs i fs'
  obtain ⟨plan, hplan, hartifact, htable, hstale, hexit, hname, hids⟩ :
      ∃ plan, Plan.make fs i.configuration "dict" ["luna", "sol", "luna"] none = .ok plan ∧
        plan.artifact = .ofString "/./build/luna.dict.bin" ∧
        plan.table fs ["luna", "sol", "luna"] = [("luna", "v1"), ("luna", "v1")] ∧
        (plan.job fs).isFresh fs = false ∧
        (runBuild fs "now" i "dict" ["luna", "sol", "luna"] none false).exitCode = 0 ∧
        (stepsOf plan.artifact).getLast? ≠ some Configuration.fileBytes ∧
        ∀ id ∈ plan.ids, (∀ c ∈ plan.locator.candidates id,
            fs'.route? c ≠ fs'.route? plan.artifact ∧ fs'.route? c ≠ fs'.route? (Builder.stagingPath plan.artifact) ∧
              (fs.pathExists c = false → fs'.pathExists c = false)) ∧
          ∀ path ∈ plan.located? fs id,
            (fs.plainText? path).isSome = true ∧ Source.timestamp? fs path ≠ some 0 := by
    decide +kernel
  have hwd : fs.HasWorkingDirectory := by
    refine ⟨fun name h => absurd h List.not_mem_nil, fun s hs => ?_⟩
    obtain rfl : s = [] := List.prefix_nil.1 hs
    exact ⟨_, rfl⟩
  have hapart : plan.Apart fs fs' :=
    ⟨fun id hid c hc => ((hids id hid).1 c hc).1, fun id hid c hc => ((hids id hid).1 c hc).2.1,
      fun id hid c hc => ((hids id hid).1 c hc).2.2⟩
  obtain ⟨hread, hfresh, -⟩ := build_then_check hwd hplan (.inr hstale) hexit
    hname hapart (fun _ h => by cases h)
  rw [htable, hartifact] at hread
  exact ⟨hread, (hfresh fun id hid path hp => (hids id hid).2 path hp).1⟩

/-- A check need not agree with the build before it, though sources and artifact lie apart.  The directory that a
source lies behind is made by the build, or the configuration was where the staging file comes to lie. -/
theorem check_can_disagree_with_build :
    (let fs := oneSource "new/.." "build" ""
      let i : Invocation := ⟨true, false, none, .build "dict" ["luna"] none false⟩
      let fs' := (runBuild fs "now" i "dict" ["luna"] none false).fs
      (Plan.make fs none "dict" ["luna"] none).map
          (fun plan => (plan.artifact, plan.locator.candidates "luna", plan.located? fs "luna")) =
        .ok (.ofString "/new/../build/luna.dict.bin", [.ofString "/new/../luna"], none) ∧
      (runBuild fs "now" i "dict" ["luna"] none false).exitCode = 0 ∧
      fs'.route? (.ofString "/new/../luna") = some [Text.encode "luna"] ∧
      fs'.plainText? (.ofString "/new/../luna") = some "v1" ∧
      Source.timestamp? fs' (.ofString "/new/../luna") = some 5 ∧
      (runCheck fs' i "dict" ["luna"] none).exitCode = staleCode) ∧
    let fs := (oneSource "." "build" "").addFile [Text.encode "x.tmp"] ⟨.ofList [], ⟨0⟩⟩
    let i : Invocation := ⟨true, false, some "x.tmp", .build "dict" ["luna"] (some "x") false⟩
    (Plan.make fs (some "x.tmp") "dict" ["luna"] (some "x")).map
        (fun plan => (plan.artifact, plan.locator.candidates "luna")) =
      .ok (.ofString "x", [.ofString "././luna"]) ∧
    (runBuild fs "now" i "dict" ["luna"] (some "x") false).exitCode = 0 ∧
    (runCheck (runBuild fs "now" i "dict" ["luna"] (some "x") false).fs i "dict" ["luna"] (some "x")).exitCode = 1 := by
  decide +kernel

end CommandLine

end Bindery
