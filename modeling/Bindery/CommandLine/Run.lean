import Bindery.Artifact.Fresh
import Bindery.Artifact.Report
import Bindery.CommandLine.Invocation
import Bindery.Configuration.Loading
import Bindery.Provenance
import Bindery.StringTable

/-!
# Running commands

What each command does to files and prints. Progress goes to the standard error stream, results go
to standard output; being quiet suppresses progress.
-/

namespace Bindery.CommandLine

def engineVersion : String := "0.1.0"

/-- How the program signs artifacts. -/
def provenance : Provenance := ⟨"signature", "inkstone"⟩

inductive Failure where
  | artifact (e : Artifact.Error)
  | configuration (e : Configuration.Error)
  /-- There is no configuration in a directory or above it. -/
  | noConfiguration (dir : Path)
  /-- There is no source to name an artifact after. -/
  | noIds
  deriving DecidableEq

def Failure.message : Failure → String
  | artifact e => e.message
  | configuration e => e.message
  | noConfiguration dir =>
    "no " ++ Configuration.fileName ++ " in " ++ dir.display ++ " or its parents"
  | noIds => "no resource ids given"

structure Outcome where
  /-- The exit code, if it did its work. -/
  result : Except Failure Nat
  output : String
  /-- What it said of its progress. -/
  messages : String
  fs : FileSystem

/-- The exit code of a program that runs a command. -/
def Outcome.exitCode (o : Outcome) : Nat :=
  match o.result with
  | .ok code => code
  | .error _ => 1

/-- All that a program that runs a command says on its standard error stream. -/
def Outcome.allMessages (o : Outcome) : String :=
  match o.result with
  | .ok _ => o.messages
  | .error e => o.messages ++ "error: " ++ e.message ++ "\n"

/-- A line of progress, unless it is to be quiet. -/
def progress (isQuiet : Bool) (line : String) : String := if isQuiet then "" else line ++ "\n"

/-! ### Building and checking -/

/-- The directory of the configuration: the one that is named, by itself or by its file, else the
nearest one from the working directory upwards. -/
def configurationDirectory (fs : FileSystem) : Option String → Except Failure Path
  | some named =>
    let p := Path.ofString named
    if fs.isFile p then
      .ok ((p.parent?.filter fun above => !above.isEmpty).getD (Path.ofString "."))
    else .ok p
  | none =>
    match Configuration.findDirectory? fs fs.workingPath with
    | some dir => .ok dir
    | none => .error (.noConfiguration fs.workingPath)

/-- The path of an artifact: the one that is named, else that of the first source. -/
def artifactPath (c : Configuration) (kind : String) (ids : List String) :
    Option String → Except Failure Path
  | some named => .ok (Path.ofString named)
  | none =>
    match ids with
    | [] => .error .noIds
    | id :: _ => .ok (c.artifactPath (id ++ "." ++ kind))

/-- Where an artifact and what it is made of belong. -/
structure Plan where
  configuration : Configuration
  locator : FallbackLocator
  artifact : Path
  ids : List String

def Plan.make (fs : FileSystem) (configuration : Option String) (kind : String)
    (ids : List String) (output : Option String) : Except Failure Plan := do
  let dir ← configurationDirectory fs configuration
  let c ← (Configuration.load fs dir).mapError .configuration
  let locator ← (c.locator kind).mapError .configuration
  let artifact ← artifactPath c kind ids output
  pure ⟨c, locator, artifact, ids⟩

structure Job where
  configuration : Configuration
  artifact : Path
  sources : List Source

/-- Looks for what an artifact is made of. -/
def Plan.job (fs : FileSystem) (p : Plan) : Job where
  configuration := p.configuration
  artifact := p.artifact
  sources := p.ids.map (Source.locate fs (.fallback p.locator))

def Job.prepare (fs : FileSystem) (configuration : Option String) (kind : String)
    (ids : List String) (output : Option String) : Except Failure Job :=
  (Plan.make fs configuration kind ids output).map (Plan.job fs)

namespace Job

/-- Who records and checks the sources. -/
def tracker (j : Job) : Tracker where
  engineVersion := CommandLine.engineVersion
  distribution := j.configuration.distribution.identity
  verifyChecksums := j.configuration.verifyChecksums

def builder (j : Job) : Builder :=
  let sizes := j.configuration.sizes
  .ofSizes sizes.initialCapacity sizes.growthFactor sizes.maxCapacity StringTable.payloadKind

/-- What the artifact says about its sources, as they are after loading, and its making. -/
def metadata (j : Job) (fs : FileSystem) (sources : List Source) (time : String) : Metadata where
  record := j.tracker.record fs sources
  entries :=
    provenance.stamp
      { time
        codeName := j.configuration.distribution.codeName
        version := j.configuration.distribution.version
        engineVersion := CommandLine.engineVersion } .empty

/-- Compiles the sources into the artifact. -/
def compile (j : Job) (fs : FileSystem) (time : String) :
    Except Artifact.Error Build.Outcome × FileSystem :=
  let (entries, sources) := StringTable.gather fs j.sources
  let (r, fs, _) :=
    j.builder.build j.artifact (j.metadata fs sources time)
      (StringTable.write (σ := Unit) entries) fs ()
  (r, fs)

end Job

def finishedLine (o : Build.Outcome) : String :=
  let retries := if o.attempts ≤ 1 then "" else ", " ++ toString o.attempts ++ " attempts"
  "  Finished " ++ o.path.display ++ " (" ++ toString o.size ++ " bytes" ++ retries ++ ")"

/-- Compiles sources into an artifact, unless it is as they are already. -/
def runBuild (fs : FileSystem) (time : String) (i : Invocation) (kind : String)
    (ids : List String) (output : Option String) (force : Bool) : Outcome :=
  match Job.prepare fs i.configuration kind ids output with
  | .error e => ⟨.error e, "", "", fs⟩
  | .ok j =>
    if !force && Artifact.isFresh j.tracker fs j.artifact j.sources then
      ⟨.ok 0, "", progress i.quiet ("     Fresh " ++ j.artifact.display), fs⟩
    else
      let started :=
        progress i.quiet (" Compiling " ++ kind ++ " " ++ String.intercalate ", " ids ++ " (" ++
          j.artifact.display ++ ")")
      match j.compile fs time with
      | (.error e, fs) => ⟨.error (.artifact e), "", started, fs⟩
      | (.ok o, fs) => ⟨.ok 0, "", started ++ progress i.quiet (finishedLine o), fs⟩

def staleCode : Nat := 2

def freshnessLines (artifact : Path) (r : Freshness) : List String :=
  (r.newerEngine.toList.map fun newer =>
    "     Stale " ++ artifact.display ++ ": built by newer engine " ++ newer) ++
  (r.stale.map fun (id, reason) => "     Stale " ++ id ++ ": " ++ reason.message) ++
  if r.isFresh then ["     Fresh " ++ artifact.display] else []

def runCheck (fs : FileSystem) (i : Invocation) (kind : String) (ids : List String)
    (output : Option String) : Outcome :=
  match Job.prepare fs i.configuration kind ids output with
  | .error e => ⟨.error e, "", "", fs⟩
  | .ok j =>
    match Artifact.metadataOf fs j.artifact with
    | .error e =>
      ⟨.ok staleCode, "",
        progress i.quiet ("     Stale " ++ j.artifact.display ++ ": no usable build record (" ++
          e.message ++ ")"), fs⟩
    | .ok m =>
      let r := j.tracker.check fs m.record j.sources
      ⟨.ok (if r.isFresh then 0 else staleCode), "",
        String.join ((freshnessLines j.artifact r).map (progress i.quiet)), fs⟩

/-! ### Looking at files -/

def runInspect (fs : FileSystem) (artifact : String) (format : ReportFormat) : Outcome :=
  match Artifact.load fs (Path.ofString artifact) with
  | .error e => ⟨.error (.artifact e), "", "", fs⟩
  | .ok a =>
    let text :=
      match format with
      | .text => a.report.text
      | .json => a.report.json.pretty ++ "\n"
    ⟨.ok 0, text, "", fs⟩

def runChecksum (fs : FileSystem) (files : List String) : Outcome :=
  let sums := files.map fun file => (Path.ofString file, Checksum.ofFile fs (Path.ofString file))
  let failed := sums.any fun s => s.2 matches .error _
  { result := .ok (if failed then 1 else 0)
    output :=
      String.join (sums.map fun
        | (p, .ok c) => Artifact.Report.checksumText c ++ "  " ++ p.display ++ "\n"
        | (_, .error _) => "")
    messages :=
      String.join (sums.map fun
        | (_, .ok _) => ""
        | (_, .error e) => "error: " ++ e.message ++ "\n")
    fs }

/-- Does what a command line asks for, `offset` seconds east of the meridian. -/
def run (fs : FileSystem) (offset : Int) (i : Invocation) : Outcome :=
  match i.command with
  | .build kind ids output force =>
    runBuild fs (Build.timeText fs.now.seconds offset) i kind ids output force
  | .check kind ids output => runCheck fs i kind ids output
  | .inspect artifact format => runInspect fs artifact format
  | .checksum files => runChecksum fs files

end Bindery.CommandLine
