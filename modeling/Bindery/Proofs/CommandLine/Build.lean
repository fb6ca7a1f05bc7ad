import Bindery.CommandLine.Run
import Bindery.Proofs.StringTable.Builds

/-!
# What compiling sources does

Compiling is one build (`Job.compile_eq`), whose writer stores the texts of the sources.  If it succeeds then what is
at the artifact's path is what was compiled (`Job.compiledAt_of_compile`): its record is the one of the sources as
they were after reading, and its table has their texts (`Job.CompiledAt.metadataOf`, `Job.CompiledAt.table`).  This
holds of every file with the same bytes (`Job.CompiledAt.of_read`).

A run of the command that builds either compiles, and leaves all files but two, or leaves everything
(`runBuild_keepsFiles`).
-/

namespace Bindery.CommandLine

open FileSystem

namespace Job

variable {j : Job} {fs fs₀ fs' : FileSystem} {time : String} {p q : Path}

/-- The entries of the table that is made of the sources. -/
def entries (j : Job) (fs : FileSystem) : List StringTable.Entry :=
  j.sources.filterMap fun s => (s.text? fs).map (s.id, ·)

/-- The sources as they are once their texts were asked for. -/
def sourcesRead (j : Job) (fs : FileSystem) : List Source := j.sources.map (Source.afterReading fs)

/-- Whether the artifact is as its sources are. -/
def isFresh (j : Job) (fs : FileSystem) : Bool := Artifact.isFresh j.tracker fs j.artifact j.sources

theorem isFresh_eq {m : Metadata} (hm : Artifact.metadataOf fs j.artifact = .ok m) :
    j.isFresh fs = j.tracker.isFresh fs m.record j.sources := by
  unfold isFresh Artifact.isFresh
  rw [hm]

/-- The build that compiles the sources. -/
def built (j : Job) (fs : FileSystem) (time : String) : Except Artifact.Error Build.Outcome × FileSystem × Unit :=
  j.builder.build j.artifact (j.metadata fs (j.sourcesRead fs) time)
    (Script.writer (StringTable.script (j.entries fs))) fs ()

theorem compile_eq (j : Job) (fs : FileSystem) (time : String) :
    j.compile fs time = ((j.built fs time).1, (j.built fs time).2.1) := by
  unfold compile built
  rw [StringTable.gather_eq]
  dsimp only
  rw [StringTable.write_eq_writer]
  rfl

/-- What is at a path is an artifact that a job made of its sources as they were in a file system. -/
def CompiledAt (j : Job) (fs₀ fs : FileSystem) (p : Path) : Prop :=
  ∃ time r id root block payload, fs.stat p = .ok (r, .file id) ∧
    (Artifact.blocks StringTable.payloadKind (j.metadata fs₀ (j.sourcesRead fs₀) time) root block payload).WrittenIn
      (fs.file id).content ∧
    StringTable.Holds (j.entries fs₀) root payload

theorem compiledAt_of_compile {o : Build.Outcome} (h : j.compile fs time = (.ok o, fs')) :
    j.CompiledAt fs fs' j.artifact := by
  rw [compile_eq] at h
  obtain ⟨hok, rfl⟩ := Prod.mk.inj h
  have hbuilt : j.built fs time = (.ok o, (j.built fs time).2.1, ()) := Prod.ext hok rfl
  obtain ⟨v, s, s', root, w, block, dst, id, hrun, hstat, hin⟩ :=
    Builder.build_writes (fun u => StringTable.confined_script _ u []) hbuilt
  exact ⟨time, dst, id, w.2.root, block, w.2.ledger, hstat, hin, StringTable.holds_of_run hrun⟩

theorem locate_of_compile {o : Build.Outcome} (h : j.compile fs time = (.ok o, fs')) :
    ∃ dir name, fs'.locate j.artifact = .ok (.entry dir name false) := by
  rw [compile_eq] at h
  obtain ⟨hok, rfl⟩ := Prod.mk.inj h
  exact Builder.locate_of_build (show j.built fs time = (.ok o, (j.built fs time).2.1, ()) from Prod.ext hok rfl)

namespace CompiledAt

theorem metadataOf (h : j.CompiledAt fs₀ fs p) :
    ∃ m, Artifact.metadataOf fs p = .ok m ∧ m.record = j.tracker.record fs₀ (j.sourcesRead fs₀) := by
  obtain ⟨time, r, id, root, block, payload, hstat, hin, -⟩ := h
  exact ⟨_, Artifact.metadataOf_of_writtenIn hstat hin, rfl⟩

theorem table (h : j.CompiledAt fs₀ fs p) : StringTable.StoredAt fs p (j.entries fs₀) := by
  obtain ⟨time, r, id, root, block, payload, hstat, hin, hholds⟩ := h
  exact StringTable.storedAt_of_writtenIn hstat hin hholds

/-- A file with the same bytes is the same artifact. -/
theorem of_read (h : j.CompiledAt fs₀ fs p) (hr : fs'.read q = fs.read p) : j.CompiledAt fs₀ fs' q := by
  obtain ⟨time, r, id, root, block, payload, hstat, hin, hholds⟩ := h
  rw [read_eq_ok.2 ⟨r, id, hstat, rfl⟩] at hr
  obtain ⟨r', id', hstat', hbytes⟩ := read_eq_ok.1 hr
  exact ⟨time, r', id', root, block, payload, hstat', hin.of_toList_eq hbytes, hholds⟩

end CompiledAt

end Job

/-! ### Runs -/

section Runs

variable {fs : FileSystem} {time : String} {i : Invocation} {kind : String} {ids : List String}
  {output : Option String} {force : Bool} {plan : Plan}

theorem prepare_eq (hplan : Plan.make fs i.configuration kind ids output = .ok plan) :
    Job.prepare fs i.configuration kind ids output = .ok (plan.job fs) := by
  unfold Job.prepare
  rw [hplan]
  rfl

theorem runBuild_of_fresh (hplan : Plan.make fs i.configuration kind ids output = .ok plan)
    (hfresh : (plan.job fs).isFresh fs = true) :
    (runBuild fs time i kind ids output false).exitCode = 0 ∧ (runBuild fs time i kind ids output false).fs = fs := by
  unfold Job.isFresh at hfresh
  unfold runBuild
  rw [prepare_eq hplan]
  dsimp only
  rw [hfresh]
  exact ⟨rfl, rfl⟩

/-- A run that is forced to compile, or finds the artifact stale. -/
def Compiles (plan : Plan) (fs : FileSystem) (force : Bool) : Prop := force = true ∨ (plan.job fs).isFresh fs = false

theorem runBuild_of_compiles (time : String) (hplan : Plan.make fs i.configuration kind ids output = .ok plan)
    (h : Compiles plan fs force) :
    (runBuild fs time i kind ids output force).fs = ((plan.job fs).compile fs time).2 ∧
      ((runBuild fs time i kind ids output force).exitCode = 0 ↔
        ∃ o, ((plan.job fs).compile fs time).1 = .ok o) := by
  have hgo : (!force && Artifact.isFresh (plan.job fs).tracker fs (plan.job fs).artifact (plan.job fs).sources) =
      false := by
    rcases h with rfl | h
    · rfl
    · unfold Job.isFresh at h
      rw [h, Bool.and_false]
  unfold runBuild
  rw [prepare_eq hplan]
  dsimp only
  rw [hgo]
  rcases (plan.job fs).compile fs time with ⟨e | o, fs'⟩
  · exact ⟨rfl, by simp [Outcome.exitCode]⟩
  · exact ⟨rfl, by simp [Outcome.exitCode]⟩

theorem compile_of_runBuild (hplan : Plan.make fs i.configuration kind ids output = .ok plan)
    (h : Compiles plan fs force) (hexit : (runBuild fs time i kind ids output force).exitCode = 0) :
    ∃ o, (plan.job fs).compile fs time = (.ok o, (runBuild fs time i kind ids output force).fs) := by
  obtain ⟨hfs, hiff⟩ := runBuild_of_compiles time hplan h
  obtain ⟨o, ho⟩ := hiff.1 hexit
  exact ⟨o, Prod.ext ho hfs.symm⟩

theorem runCheck_eq (hplan : Plan.make fs i.configuration kind ids output = .ok plan) {m : Metadata}
    (hm : Artifact.metadataOf fs plan.artifact = .ok m) :
    (runCheck fs i kind ids output).exitCode =
      if (plan.job fs).tracker.isFresh fs m.record (plan.job fs).sources then 0 else staleCode := by
  have hm' : Artifact.metadataOf fs (plan.job fs).artifact = .ok m := hm
  unfold runCheck
  rw [prepare_eq hplan]
  dsimp only
  rw [hm']
  rfl

/-- Where a run leaves the files that were there: anywhere, but if it compiles, at the artifact's staging path and,
unless it fails, at the artifact's own. -/
def Spares (plan : Plan) (fs : FileSystem) (force : Bool) (o : Outcome) (r : Route) : Prop :=
  Compiles plan fs force →
    o.fs.route? (Builder.stagingPath plan.artifact) ≠ some r ∧ (o.fs.route? plan.artifact ≠ some r ∨ o.exitCode ≠ 0)

theorem runBuild_keepsFiles (hplan : Plan.make fs i.configuration kind ids output = .ok plan) :
    KeepsFiles (Spares plan fs force (runBuild fs time i kind ids output force)) fs
      (runBuild fs time i kind ids output force).fs := by
  by_cases hc : Compiles plan fs force
  · obtain ⟨hfs, hexit⟩ := runBuild_of_compiles time hplan hc
    have hkeeps := Builder.build_keepsFiles (plan.job fs).builder plan.artifact
      ((plan.job fs).metadata fs ((plan.job fs).sourcesRead fs) time) (StringTable.script ((plan.job fs).entries fs))
      fs ()
    rw [Job.compile_eq] at hfs hexit
    have hleaves (r : Route) (hr : Spares plan fs force (runBuild fs time i kind ids output force) r) :
        Builder.Leaves plan.artifact ((plan.job fs).built fs time).2.1 ((plan.job fs).built fs time).1 r := by
      obtain ⟨hs, hd⟩ := hr hc
      rw [hfs] at hs hd
      refine ⟨hs, hd.imp_right fun hne => ?_⟩
      rcases hb : ((plan.job fs).built fs time).1 with e | o
      · exact ⟨e, rfl⟩
      · exact absurd (hexit.2 ⟨o, hb⟩) hne
    rw [hfs]
    exact ⟨hkeeps.toKeepsDirectories, fun r hr => hkeeps.node r (hleaves r hr),
      fun r hr => hkeeps.file r (hleaves r hr)⟩
  · have hf : force = false := by
      cases force with
      | false => rfl
      | true => exact absurd (.inl rfl) hc
    subst hf
    have hfresh : (plan.job fs).isFresh fs = true := by
      by_contra h
      exact hc (.inr (by simpa using h))
    rw [(runBuild_of_fresh hplan hfresh).2]
    exact .refl _ fs

end Runs

end Bindery.CommandLine
