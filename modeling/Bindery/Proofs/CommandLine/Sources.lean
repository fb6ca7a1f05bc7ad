import Bindery.Proofs.CommandLine.Plans

/-!
# Building keeps the sources

Building keeps every source where neither the artifact nor its staging file comes to lie, whether it succeeds or not
(`located_sources_are_kept`).  Nothing keeps the two apart: sources and artifacts can be named alike and lie in one
directory, and then a build writes over its own source (`build_can_overwrite_its_source`).
-/

namespace Bindery

open FileSystem

namespace CommandLine

variable {fs : FileSystem} {p : Path} {time : String} {i : Invocation} {kind : String} {ids : List String}
  {output : Option String} {force : Bool} {plan : Plan} {id : String}

/-- A file that a source was located at is kept, unless the build compiles, and puts there its staging file or, if it
succeeds, the artifact. -/
theorem located_sources_are_kept (hplan : Plan.make fs i.configuration kind ids output = .ok plan)
    (hp : plan.located? fs id = some p) :
    let o := runBuild fs time i kind ids output force
    SameFile fs o.fs p ∨
      Compiles plan fs force ∧
        (o.fs.route? p = o.fs.route? (Builder.stagingPath plan.artifact) ∨
          o.exitCode = 0 ∧ o.fs.route? p = o.fs.route? plan.artifact) := by
  intro o
  obtain ⟨r, n, hstat⟩ := isFile_eq_true.1 (Source.locate_eq_some hp).2
  have hkeeps : KeepsFiles (Spares plan fs force o) fs o.fs := runBuild_keepsFiles hplan
  have hroute : o.fs.route? p = some r := route?_mono hkeeps.toKeepsDirectories (route?_of_stat hstat).1
  rw [hroute]
  by_cases hc : Compiles plan fs force
  · by_cases hstaging : o.fs.route? (Builder.stagingPath plan.artifact) = some r
    · exact .inr ⟨hc, .inl hstaging.symm⟩
    by_cases hartifact : o.exitCode = 0 ∧ o.fs.route? plan.artifact = some r
    · exact .inr ⟨hc, .inr ⟨hartifact.1, hartifact.2.symm⟩⟩
    · exact .inl (hkeeps.sameFile hstat fun _ => ⟨hstaging, (not_and_or.1 hartifact).symm⟩)
  · exact .inl (hkeeps.sameFile hstat fun h => absurd h hc)

/-- A directory with a configuration, which says where sources and artifacts lie and how the files of a kind end, and
with a source. -/
def oneSource (userData staging suffix : String) : FileSystem :=
  let configuration := "[paths]\nuser_data_dir = \"" ++ userData ++ "\"\nstaging_dir = \"" ++ staging ++
    "\"\n[[resource_kinds]]\nname = \"dict\"\nsuffix = \"" ++ suffix ++ "\"\n"
  ((bare ⟨0⟩).addFile [Text.encode Configuration.fileName] ⟨.ofList (Text.encode configuration), ⟨0⟩⟩).addFile
    [Text.encode ("luna" ++ suffix)] ⟨.ofList (Text.encode "v1"), .ofSeconds 5⟩

/-- The command that builds the source. -/
def buildLuna (fs : FileSystem) : Outcome :=
  runBuild fs "now" ⟨true, false, none, .build "dict" ["luna"] none false⟩ "dict" ["luna"] none false

/-- Where that command finds the source. -/
def lunaAt? (fs : FileSystem) : Except Failure (Option Path) :=
  (Plan.make fs none "dict" ["luna"] none).map fun plan => plan.located? fs "luna"

/-- The artifact and its staging file are in another directory than the source. -/
theorem source_beside_staging_directory_is_kept :
    (buildLuna (oneSource "." "build" ".txt")).exitCode = 0 ∧
      SameFile (oneSource "." "build" ".txt") (buildLuna (oneSource "." "build" ".txt")).fs
        (.ofString "/./luna.txt") := by
  obtain ⟨hexit, plan, hplan, hlocated, hstaging, hartifact⟩ :
      (buildLuna (oneSource "." "build" ".txt")).exitCode = 0 ∧
      ∃ plan, Plan.make (oneSource "." "build" ".txt") none "dict" ["luna"] none = .ok plan ∧
        plan.located? (oneSource "." "build" ".txt") "luna" = some (.ofString "/./luna.txt") ∧
        (buildLuna (oneSource "." "build" ".txt")).fs.route? (.ofString "/./luna.txt") ≠
          (buildLuna (oneSource "." "build" ".txt")).fs.route? (Builder.stagingPath plan.artifact) ∧
        (buildLuna (oneSource "." "build" ".txt")).fs.route? (.ofString "/./luna.txt") ≠
          (buildLuna (oneSource "." "build" ".txt")).fs.route? plan.artifact := by
    decide +kernel
  have h : SameFile (oneSource "." "build" ".txt") (buildLuna (oneSource "." "build" ".txt")).fs
      (.ofString "/./luna.txt") ∨ _ := located_sources_are_kept hplan hlocated
  refine ⟨hexit, h.resolve_right ?_⟩
  rintro ⟨-, h | ⟨-, h⟩⟩
  · exact hstaging h
  · exact hartifact h

/-- The artifact is put where its source is, or the source is taken for the staging file and gone afterwards. -/
theorem build_can_overwrite_its_source :
    (∃ fs p, lunaAt? fs = .ok (some p) ∧ (buildLuna fs).exitCode = 0 ∧ (buildLuna fs).fs.read p ≠ fs.read p) ∧
    ∃ fs p, lunaAt? fs = .ok (some p) ∧ (buildLuna fs).exitCode = 0 ∧ (buildLuna fs).fs.pathExists p = false := by
  refine ⟨⟨oneSource "." "." ".dict.bin", .ofString "/./luna.dict.bin", ?_⟩,
    oneSource "." "." ".dict.bin.tmp", .ofString "/./luna.dict.bin.tmp", ?_⟩
  · decide +kernel
  · decide +kernel

end CommandLine

end Bindery
